import Mathlib.Data.List.TakeWhile
import OutlierScoring.Proofs.Json.Forms
import OutlierScoring.Proofs.Time.Calendar
import OutlierScoring.Time.Instant

/-!
# Points in time are read back

The text of an instant is read back as the instant (`ofText?_toText`), down to the nanosecond and
over the whole range of years. Each part of the text is a number of fixed width, so that it is read
back whatever digits follow (`number?_padded`).
-/

namespace OutlierScoring.Time

namespace Instant

/-- The instant is one that a clock can show: a second of its minute, a nanosecond of its second,
and a year in range. -/
structure IsValid (t : Instant) : Prop where
  seconds_le : t.seconds ≤ 60
  nanoseconds_lt : t.nanoseconds < 1000000000
  firstYear_le : firstYear ≤ (Date.ofDays (t.minutes / 1440)).year
  le_lastYear : (Date.ofDays (t.minutes / 1440)).year ≤ lastYear

/-! ### Numbers of fixed width -/

section Padded

variable {width n : Nat}

theorem toList_padded (width n : Nat) : (padded width n).toList =
    List.replicate (width - (Nat.toDigits 10 n).length) '0' ++ Nat.toDigits 10 n :=
  String.toList_ofList

theorem isDigit_of_mem_padded : ∀ c ∈ (padded width n).toList, c.isDigit = true := by
  intro c hc
  rw [toList_padded] at hc
  rcases List.mem_append.mp hc with hc | hc
  · rw [(List.mem_replicate.mp hc).2]
    rfl
  · exact isDigit_of_mem_toDigits c hc

@[simp]
theorem digitsValue_padded (width n : Nat) : digitsValue 0 (padded width n).toList = n := by
  rw [toList_padded, digitsValue_append, digitsValue_replicate_zero, Nat.mul_zero,
    digitsValue_toDigits]

theorem length_padded (hwidth : 0 < width) (h : n < 10 ^ width) :
    (padded width n).toList.length = width := by
  have hdigits : (Nat.toDigits 10 n).length ≤ width :=
    (Nat.length_toDigits_le_iff (by decide) hwidth).mpr h
  rw [toList_padded, List.length_append, List.length_replicate]
  omega

theorem isBlank_of_isDigit {c : Char} (h : c.isDigit = true) : Text.isBlank c = false := by
  have hcode := toNat_of_isDigit h
  exact Text.isBlank_of_visible (by omega) (by omega)

theorem dropBlanks_cons {c : Char} {rest : List Char} (h : Text.isBlank c = false) :
    Text.dropBlanks (c :: rest) = c :: rest := by
  rw [Text.dropBlanks, List.dropWhile_cons_of_neg (by simp [h])]

theorem exists_padded_eq_cons (width n : Nat) :
    ∃ c tail, (padded width n).toList = c :: tail ∧ c.isDigit = true := by
  rcases h : (padded width n).toList with _ | ⟨c, tail⟩
  · rw [toList_padded] at h
    exact absurd (List.append_eq_nil_iff.mp h).2 Nat.toDigits_ne_nil
  · exact ⟨c, tail, rfl, isDigit_of_mem_padded c (h ▸ List.mem_cons_self)⟩

theorem dropBlanks_padded (width n : Nat) (rest : List Char) :
    Text.dropBlanks ((padded width n).toList ++ rest) = (padded width n).toList ++ rest := by
  obtain ⟨c, tail, htext, hc⟩ := exists_padded_eq_cons width n
  rw [htext, List.cons_append, dropBlanks_cons (isBlank_of_isDigit hc)]

/-- A number that is as wide as can be is read back, even where digits follow. -/
theorem number?_padded {low high : Nat} (rest : List Char) (hwidth : 0 < width)
    (h : n < 10 ^ width) (hlow : low ≤ n) (hhigh : n ≤ high) :
    number? width low high ((padded width n).toList ++ rest) = some (n, rest) := by
  have hlength := length_padded hwidth h
  have htake : (((padded width n).toList ++ rest).take width).takeWhile Char.isDigit =
      (padded width n).toList := by
    rw [List.take_left' hlength, List.takeWhile_eq_self_iff]
    exact isDigit_of_mem_padded
  have hnonempty : (padded width n).toList.isEmpty = false := by
    rw [List.isEmpty_eq_false_iff, ← List.length_pos_iff]
    omega
  rw [number?, dropBlanks_padded, htake, digitsValue_padded, hnonempty, List.drop_left, if_neg]
  simp only [Bool.false_eq_true, false_or]
  omega

end Padded

/-! ### Parts of a text -/

section Year

variable {year : Int} {rest : List Char}

/-- A year of four digits is written without a sign. -/
theorem year?_unsigned (h : 0 ≤ year ∧ year ≤ 9999) :
    year? ((padded 4 year.toNat).toList ++ rest) = some (year, rest) := by
  obtain ⟨c, tail, htext, hc⟩ := exists_padded_eq_cons 4 year.toNat
  have hread : number? 4 0 9999 ((padded 4 year.toNat).toList ++ rest) = some (year.toNat, rest) :=
    number?_padded rest (by decide) (by omega) (Nat.zero_le _) (by omega)
  rw [htext, List.cons_append] at hread ⊢
  rw [year?, dropBlanks_cons (isBlank_of_isDigit hc)]
  split
  · rename_i heq
    obtain rfl := (List.cons.inj heq).1
    exact absurd hc (by decide)
  · rename_i heq
    obtain rfl := (List.cons.inj heq).1
    exact absurd hc (by decide)
  · rw [hread, Option.map_some]
    simp only [Int.toNat_of_nonneg h.1]

/-- Behind a sign a year has as many digits as it needs. -/
theorem year?_signed (h : NoDigit rest) :
    year? (((if year < 0 then "-" else "+") ++ padded 4 year.natAbs).toList ++ rest) =
      some (year, rest) := by
  have hvalue := digitsValue_padded 4 year.natAbs
  have hspan : spanDigits ((padded 4 year.natAbs).toList ++ rest) =
      ((padded 4 year.natAbs).toList, rest) := spanDigits_append isDigit_of_mem_padded h
  obtain ⟨c, tail, htext, -⟩ := exists_padded_eq_cons 4 year.natAbs
  rw [htext] at hvalue hspan
  split
  · rw [String.toList_append, htext]
    show year? ('-' :: (c :: tail ++ rest)) = _
    rw [year?, dropBlanks_cons (by decide)]
    simp only [hspan, hvalue]
    congr 2
    omega
  · rw [String.toList_append, htext]
    show year? ('+' :: (c :: tail ++ rest)) = _
    rw [year?, dropBlanks_cons (by decide)]
    simp only [hspan, hvalue]
    congr 2
    omega

theorem year?_writeYear (year : Int) (h : NoDigit rest) :
    year? ((writeYear year).toList ++ rest) = some (year, rest) := by
  rw [writeYear]
  split
  · rename_i hfour
    exact year?_unsigned hfour
  · exact year?_signed h

end Year

theorem mark?_cons {c : Char} (rest : List Char) (h : Text.isBlank c = false) :
    mark? c (c :: rest) = some rest := by
  rw [mark?, dropBlanks_cons h]
  exact if_pos rfl

theorem date?_write {date : Date} (h : date.isValid = true) (hfirst : firstYear ≤ date.year)
    (hlast : date.year ≤ lastYear) (rest : List Char) :
    date? ((writeYear date.year).toList ++ '-' :: ((padded 2 date.month).toList ++
      '-' :: ((padded 2 date.day).toList ++ rest))) = some (date, rest) := by
  have hparts := h
  simp only [Date.isValid, Bool.and_eq_true, decide_eq_true_eq] at hparts
  obtain ⟨⟨⟨hmonth, hmonth'⟩, hday⟩, hday'⟩ := hparts
  have hlength : Date.daysIn date.year date.month ≤ 31 := by
    rw [Date.daysIn]
    split
    · split <;> decide
    · split <;> decide
  have hdash : Text.isBlank '-' = false := by decide
  rw [date?, year?_writeYear _ (noDigit_cons (by decide))]
  simp only [Option.bind_eq_bind, Option.bind_some, mark?_cons _ hdash]
  rw [number?_padded _ (by decide) (by omega) hmonth hmonth']
  simp only [Option.bind_some, mark?_cons _ hdash]
  rw [number?_padded _ (by decide) (by omega) hday (by omega)]
  simp only [Option.bind_some, h, hfirst, hlast, decide_true, Bool.and_self, if_true]
  rfl

/-- Decimals of a second, in as many digits as are written. -/
theorem decimals?_padded {width n : Nat} {rest : List Char} (hwidth : 0 < width) (hmax : width ≤ 9)
    (h : n < 10 ^ width) (hrest : NoDigit rest) :
    decimals? ('.' :: ((padded width n).toList ++ rest)) = some (10 ^ (9 - width) * n, rest) := by
  have hlength := length_padded hwidth h
  have hvalue : digitsValue 0 (((padded width n).toList ++ List.replicate 9 '0').take 9) =
      10 ^ (9 - width) * n := by
    rw [List.take_append, List.take_of_length_le (by omega), List.take_replicate, hlength,
      digitsValue_append, digitsValue_padded, digitsValue_replicate_zero,
      Nat.min_eq_left (by omega)]
  obtain ⟨c, tail, htext, -⟩ := exists_padded_eq_cons width n
  have hspan : spanDigits ((padded width n).toList ++ rest) = ((padded width n).toList, rest) :=
    spanDigits_append isDigit_of_mem_padded hrest
  rw [decimals?, hspan]
  rw [htext] at hvalue ⊢
  simp only [hvalue]

theorem decimals?_write {nanoseconds : Nat} (h : nanoseconds < 1000000000) :
    decimals? ((writeDecimals nanoseconds).toList ++ ['Z']) = some (nanoseconds, ['Z']) := by
  have hread {width n : Nat} (hwidth : 0 < width) (hmax : width ≤ 9) (hn : n < 10 ^ width)
      (hvalue : 10 ^ (9 - width) * n = nanoseconds) :
      decimals? (("." ++ padded width n).toList ++ ['Z']) = some (nanoseconds, ['Z']) := by
    rw [String.toList_append, ← hvalue]
    exact decimals?_padded hwidth hmax hn (noDigit_cons (by decide))
  rw [writeDecimals]
  -- The zeros that are left out are groups of three, so each of the widths is tried.
  split
  · rename_i hzero
    rw [hzero]
    rfl
  · split
    · exact hread (by decide) (by decide) (by omega) (by omega)
    · split
      · exact hread (by decide) (by decide) (by omega) (by omega)
      · exact hread (by decide) (by decide) (by omega) (by omega)

/-! ### Instants -/

theorem toList_toText (t : Instant) : t.toText.toList =
    (writeYear (Date.ofDays (t.minutes / 1440)).year).toList ++ '-' ::
      ((padded 2 (Date.ofDays (t.minutes / 1440)).month).toList ++ '-' ::
        ((padded 2 (Date.ofDays (t.minutes / 1440)).day).toList ++ 'T' ::
          ((padded 2 ((t.minutes % 1440).toNat / 60)).toList ++ ':' ::
            ((padded 2 ((t.minutes % 1440).toNat % 60)).toList ++ ':' ::
              ((padded 2 t.seconds).toList ++
                ((writeDecimals t.nanoseconds).toList ++ ['Z'])))))) := by
  simp [toText]

/-- The text of an instant is read back as the instant. -/
theorem ofText?_toText {t : Instant} (h : t.IsValid) : ofText? t.toText = some t := by
  obtain ⟨minutes, seconds, nanoseconds⟩ := t
  obtain ⟨hseconds, hnanoseconds, hfirst, hlast⟩ := h
  -- Each part is read in its turn, and none of them looks at what follows.
  have hcolon : Text.isBlank ':' = false := by decide
  rw [ofText?, toList_toText, date?_write (Date.isValid_ofDays _) hfirst hlast]
  simp only [Option.bind_eq_bind, Option.bind_some, separator?]
  rw [number?_padded _ (by decide) (by omega) (Nat.zero_le _) (by omega)]
  simp only [Option.bind_some, mark?_cons _ hcolon]
  rw [number?_padded _ (by decide) (by omega) (Nat.zero_le _) (by omega)]
  simp only [Option.bind_some, mark?_cons _ hcolon]
  rw [number?_padded _ (by decide) (by omega) (Nat.zero_le _) hseconds]
  simp only [Option.bind_some]
  rw [decimals?_write hnanoseconds]
  have hoffset : offset? (Text.dropBlanks ['Z']) = some (0, []) := by decide
  have hminutes : minutes / 1440 * 1440 + 60 * (((minutes % 1440).toNat / 60 : Nat) : Int) +
      (((minutes % 1440).toNat % 60 : Nat) : Int) - 0 = minutes := by
    omega
  simp only [Option.bind_some, hoffset, Date.toDays_ofDays, hminutes]
  rw [if_pos]
  · rfl
  · simp only [Bool.and_eq_true, decide_eq_true_eq]
    exact ⟨⟨by decide, hfirst⟩, hlast⟩

end Instant

/-- An instant in a document is read back. -/
theorem reads_instant (depth : Nat) {t : Instant} (h : t.IsValid) :
    Json.Reads (Json.Form.ofJson? depth (Json.Form.toJson t).canonical) t True := by
  show Json.Reads ((Json.string? (Json.text t.toText).canonical).bind Instant.ofText?) t True
  rw [(Json.reads_text _).eq_some trivial, Option.bind_some, Instant.ofText?_toText h]
  exact Json.reads_some t

end OutlierScoring.Time
