import Mathlib
import OutlierScoring.Proofs.Number.Decimals
import OutlierScoring.Text.Blank

/-!
# Numbers in free form

Which texts stand for a number, and for which one, said without reading them: a natural number is
written with decimal digits (`IsCount`), a real number as a word or as a decimal (`IsNumber`), whose
digits may have a point among them and an exponent behind them. The value is that of the digits by
their positions.

A reader accepts exactly these texts, and gives exactly this value (`readBounded?_eq_some_iff`,
`Numeral.read?_eq_some_iff`). As there are no blanks in them, they can be told from the blanks
around them (`IsVisible`).
-/

namespace OutlierScoring

/-! ### Forms -/

/-- What may stand in front of a number, `true` for a minus. -/
inductive IsSign : List Char → Bool → Prop
  | absent : IsSign [] false
  | plus : IsSign ['+'] false
  | minus : IsSign ['-'] true

/-- The text has digits in it and nothing else. -/
def IsDigits (text : List Char) : Prop := text ≠ [] ∧ ∀ c ∈ text, c.isDigit = true

/-- A natural number below `2 ^ 64`, which may have a plus sign and zeros in front. -/
def IsCount (text : List Char) (n : Nat) : Prop :=
  ∃ digits, (text = digits ∨ text = '+' :: digits) ∧ IsDigits digits ∧
    n = Nat.ofDigitChars 10 digits 0 ∧ n < 2 ^ 64

/-- What may stand behind the digits of a decimal, and the exponent that it says. -/
inductive IsExponent : List Char → Int → Prop
  | absent : IsExponent [] 0
  | marked {mark : Char} {sign digits : List Char} {negative : Bool} : mark = 'e' ∨ mark = 'E' →
      IsSign sign negative → IsDigits digits →
      IsExponent (mark :: (sign ++ digits))
        (if negative then -(Nat.ofDigitChars 10 digits 0 : Int) else Nat.ofDigitChars 10 digits 0)

/-- The digits of a decimal, as of one number, with the exponent that goes with their last one. A
point stands between any two of them, or before or behind them all. -/
inductive IsDecimal (negative : Bool) : List Char → Decimal → Prop
  | whole {digits exponent : List Char} {e : Int} : IsDigits digits → IsExponent exponent e →
      IsDecimal negative (digits ++ exponent) ⟨negative, Nat.ofDigitChars 10 digits 0, e⟩
  | pointed {whole fraction exponent : List Char} {e : Int} : IsDigits (whole ++ fraction) →
      IsExponent exponent e →
      IsDecimal negative (whole ++ '.' :: (fraction ++ exponent))
        ⟨negative, Nat.ofDigitChars 10 (whole ++ fraction) 0, e - fraction.length⟩

/-- A number: a decimal or, in letters of any case, a word for what no decimal stands for. -/
inductive IsNumber : List Char → NumberView → Prop
  | infinite {sign word : List Char} {negative : Bool} : IsSign sign negative →
      word.map Char.toLower = "inf".toList ∨ word.map Char.toLower = "infinity".toList →
      IsNumber (sign ++ word) (.infinite negative)
  | nan {sign word : List Char} {negative : Bool} : IsSign sign negative →
      word.map Char.toLower = "nan".toList → IsNumber (sign ++ word) .nan
  | finite {sign text : List Char} {negative : Bool} {d : Decimal} : IsSign sign negative →
      IsDecimal negative text d → IsNumber (sign ++ text) (.finite d)

/-! ### Digits -/

theorem spanDigits_spec (s : List Char) :
    s = (spanDigits s).1 ++ (spanDigits s).2 ∧ ∀ c ∈ (spanDigits s).1, c.isDigit = true := by
  rw [spanDigits, List.span_eq_takeWhile_dropWhile]
  exact ⟨List.takeWhile_append_dropWhile.symm, fun c hc ↦ List.mem_takeWhile_imp hc⟩

theorem IsDigits.spanDigits_append {digits rest : List Char} (h : IsDigits digits)
    (hrest : NoDigit rest) : spanDigits (digits ++ rest) = (digits, rest) :=
  OutlierScoring.spanDigits_append h.2 hrest

/-- A number in digits does not start with a sign. -/
theorem IsDigits.exists_cons {digits : List Char} (h : IsDigits digits) :
    ∃ c rest, digits = c :: rest ∧ c.isDigit = true := by
  obtain ⟨c, rest, rfl⟩ := List.exists_cons_of_ne_nil h.1
  exact ⟨c, rest, rfl, h.2 c List.mem_cons_self⟩

/-! ### Natural numbers -/

theorem isDigits_iff {digits : List Char} :
    IsDigits digits ↔ ¬(digits.isEmpty ∨ !digits.all Char.isDigit) := by
  simp [IsDigits]

/-- A natural number is read exactly if there is one, and it is the one that is read. -/
theorem readBounded?_eq_some_iff {text : String} {n : Nat} :
    readBounded? text = some n ↔ IsCount text.toList n := by
  have hread (digits : List Char) : (if digits.isEmpty ∨ !digits.all Char.isDigit then none
      else if digitsValue 0 digits < UInt64.size then some (digitsValue 0 digits) else none) =
        some n ↔ IsDigits digits ∧ n = Nat.ofDigitChars 10 digits 0 ∧ n < 2 ^ 64 := by
    by_cases h : IsDigits digits
    · rw [if_neg (isDigits_iff.mp h), Option.ite_none_right_eq_some, Option.some.injEq]
      constructor
      · rintro ⟨hsmall, rfl⟩
        exact ⟨h, rfl, hsmall⟩
      · rintro ⟨-, rfl, hsmall⟩
        exact ⟨hsmall, rfl⟩
    · rw [if_pos (Classical.not_not.mp (isDigits_iff.not.mp h))]
      simp [h]
  rw [readBounded?]
  simp only [hread]
  constructor
  · intro h
    split at h
    · rename_i rest htext
      exact ⟨rest, .inr htext, h⟩
    · exact ⟨text.toList, .inl rfl, h⟩
  · rintro ⟨digits, htext, h⟩
    obtain ⟨c, rest, rfl, hc⟩ := h.1.exists_cons
    rcases htext with htext | htext
    · rw [htext]
      split
      · rename_i heq
        obtain ⟨rfl, -⟩ := List.cons.inj heq
        cases hc
      · exact h
    · rw [htext]
      exact h

/-! ### Signs -/

theorem exists_isSign (s : List Char) :
    ∃ sign, IsSign sign (takeSign s).1 ∧ s = sign ++ (takeSign s).2 := by
  rw [takeSign.eq_def]
  split
  · exact ⟨['-'], .minus, rfl⟩
  · exact ⟨['+'], .plus, rfl⟩
  · exact ⟨[], .absent, rfl⟩

/-- What stands behind a sign is told from it by not being a sign. -/
theorem IsSign.takeSign_append {sign : List Char} {negative : Bool} (h : IsSign sign negative)
    {c : Char} (rest : List Char) (hminus : c ≠ '-') (hplus : c ≠ '+') :
    takeSign (sign ++ c :: rest) = (negative, c :: rest) := by
  cases h with
  | absent =>
    rw [List.nil_append, takeSign.eq_def]
    split
    · rename_i heq
      exact absurd (List.cons.inj heq).1 hminus
    · rename_i heq
      exact absurd (List.cons.inj heq).1 hplus
    · rfl
  | plus => rfl
  | minus => rfl

theorem IsSign.takeSign_append_digits {sign digits : List Char} {negative : Bool}
    (h : IsSign sign negative) (hdigits : IsDigits digits) :
    takeSign (sign ++ digits) = (negative, digits) := by
  obtain ⟨c, rest, rfl, hc⟩ := hdigits.exists_cons
  refine h.takeSign_append rest ?_ ?_ <;> rintro rfl <;> cases hc

/-! ### Decimals -/

theorem readExponent?_eq_some_iff {s : List Char} {e : Int} :
    readExponent? s = some e ↔ IsExponent s e := by
  constructor
  · intro h
    cases s with
    | nil =>
      obtain rfl := Option.some.inj h
      exact .absent
    | cons mark rest =>
      rw [readExponent?] at h
      split at h
      · rename_i hmark
        obtain ⟨sign, hsign, hrest⟩ := exists_isSign rest
        rcases htake : takeSign rest with ⟨negative, body⟩
        simp only [htake] at h hsign hrest
        obtain ⟨hbody, hall⟩ := spanDigits_spec body
        generalize spanDigits body = found at h hbody hall
        -- There have to be digits, and nothing behind them.
        split at h
        · obtain rfl := Option.some.inj h
          rw [hrest, hbody, List.append_nil]
          exact .marked hmark hsign ⟨List.cons_ne_nil _ _, hall⟩
        · cases h
      · cases h
  · intro h
    cases h with
    | absent => rfl
    | marked hmark hsign hdigits =>
      have hspan : spanDigits (_ ++ []) = _ := hdigits.spanDigits_append nofun
      rw [List.append_nil] at hspan
      simp only [readExponent?, if_pos hmark, hsign.takeSign_append_digits hdigits, hspan]
      obtain ⟨c, rest, rfl, -⟩ := hdigits.exists_cons
      rfl

/-- The digits behind a point, if there is one, and what follows them. -/
def splitFraction : List Char → List Char × List Char
  | '.' :: rest => spanDigits rest
  | rest => ([], rest)

theorem readDecimal?_eq (negative : Bool) (s : List Char) : readDecimal? negative s =
    let whole := (spanDigits s).1
    let (fraction, rest) := splitFraction (spanDigits s).2
    if whole.isEmpty ∧ fraction.isEmpty then none
    else (readExponent? rest).map fun exponent ↦
      ⟨negative, Nat.ofDigitChars 10 (whole ++ fraction) 0, exponent - fraction.length⟩ := by
  have hvalue (whole fraction : List Char) : digitsValue (digitsValue 0 whole) fraction =
      Nat.ofDigitChars 10 (whole ++ fraction) 0 := (digitsValue_append 0 whole fraction).symm
  simp only [← hvalue]
  rw [readDecimal?]
  rcases spanDigits s with ⟨whole, rest⟩
  show (match splitFraction rest with
    | (fraction, rest) => if whole.isEmpty ∧ fraction.isEmpty then none
      else (readExponent? rest).bind fun exponent ↦ some (⟨negative,
        digitsValue (digitsValue 0 whole) fraction, exponent - fraction.length⟩ : Decimal)) = _
  rcases splitFraction rest with ⟨fraction, rest⟩
  show (if _ then _ else _) = if _ then _ else _
  rw [Option.map_eq_bind]
  rfl

/-- An exponent is neither a digit nor a fraction. -/
theorem IsExponent.not_digit_or_point {s : List Char} {e : Int} (h : IsExponent s e) :
    NoDigit s ∧ splitFraction s = ([], s) := by
  cases h with
  | absent => exact ⟨nofun, rfl⟩
  | marked hmark =>
    rcases hmark with rfl | rfl <;> exact ⟨noDigit_cons (by decide), rfl⟩

theorem splitFraction_cases (s : List Char) :
    (∃ rest, s = '.' :: rest ∧ splitFraction s = spanDigits rest) ∨ splitFraction s = ([], s) := by
  rw [splitFraction.eq_def]
  split
  · exact .inl ⟨_, rfl, rfl⟩
  · exact .inr rfl

theorem readDecimal?_eq_some_iff {negative : Bool} {s : List Char} {d : Decimal} :
    readDecimal? negative s = some d ↔ IsDecimal negative s d := by
  rw [readDecimal?_eq]
  constructor
  · intro h
    obtain ⟨hs, hwhole⟩ := spanDigits_spec s
    generalize spanDigits s = found at h hs hwhole
    obtain ⟨whole, rest⟩ := found
    rcases splitFraction_cases rest with ⟨pointed, rfl, hsplit⟩ | hsplit
    · obtain ⟨hpointed, hfraction⟩ := spanDigits_spec pointed
      simp only [hsplit] at h
      generalize spanDigits pointed = found at h hpointed hfraction
      obtain ⟨fraction, exponent⟩ := found
      simp only at h
      rw [Option.ite_none_left_eq_some, Option.map_eq_some_iff] at h
      obtain ⟨hnonempty, e, he, rfl⟩ := h
      rw [hs, hpointed]
      refine .pointed ⟨by simpa [not_and] using hnonempty, ?_⟩ (readExponent?_eq_some_iff.mp he)
      exact List.forall_mem_append.mpr ⟨hwhole, hfraction⟩
    · simp only [hsplit] at h
      rw [Option.ite_none_left_eq_some, Option.map_eq_some_iff] at h
      obtain ⟨hnonempty, e, he, rfl⟩ := h
      rw [hs, List.append_nil, List.length_nil, Nat.cast_zero, Int.sub_zero]
      exact .whole ⟨by simpa using hnonempty, hwhole⟩ (readExponent?_eq_some_iff.mp he)
  · intro h
    cases h with
    | @whole digits exponent e hdigits he =>
      obtain ⟨hstop, hsplit⟩ := he.not_digit_or_point
      simp only [hdigits.spanDigits_append hstop, hsplit, readExponent?_eq_some_iff.mpr he]
      simp [hdigits.1]
    | @pointed whole fraction exponent e hdigits he =>
      obtain ⟨hwhole, hfraction⟩ := List.forall_mem_append.mp hdigits.2
      have hfirst : spanDigits (whole ++ '.' :: (fraction ++ exponent)) =
          (whole, '.' :: (fraction ++ exponent)) :=
        spanDigits_append hwhole (noDigit_cons (by decide))
      have hsecond : splitFraction ('.' :: (fraction ++ exponent)) = (fraction, exponent) :=
        spanDigits_append hfraction he.not_digit_or_point.1
      have hne := hdigits.1
      simp only [hfirst, hsecond, readExponent?_eq_some_iff.mpr he]
      rw [if_neg (by simpa using hne)]
      rfl

/-! ### Words -/

theorem toLower_of_lt {c : Char} (h : c.toNat < 65) : c.toLower = c := by
  rw [Char.toLower, dif_neg]
  rintro ⟨hlow, -⟩
  have hlow : 65 ≤ c.toNat := UInt32.le_iff_toNat_le.mp hlow
  omega

/-- A decimal starts with a digit or with the point, and so with no sign and no letter. -/
theorem IsDecimal.exists_cons {negative : Bool} {s : List Char} {d : Decimal}
    (h : IsDecimal negative s d) :
    ∃ c rest, s = c :: rest ∧ c ≠ '-' ∧ c ≠ '+' ∧ c.toLower ≠ 'i' ∧ c.toLower ≠ 'n' := by
  have hstart {c : Char} {rest : List Char} (hs : s = c :: rest) (hc : c.isDigit = true ∨ c = '.') :
      ∃ c rest, s = c :: rest ∧ c ≠ '-' ∧ c ≠ '+' ∧ c.toLower ≠ 'i' ∧ c.toLower ≠ 'n' := by
    refine ⟨c, rest, hs, ?_⟩
    rcases hc with hdigit | rfl
    · rw [toLower_of_lt (by have := toNat_of_isDigit hdigit; omega)]
      refine ⟨?_, ?_, ?_, ?_⟩ <;> rintro rfl <;> cases hdigit
    · decide
  cases h with
  | whole hdigits =>
    obtain ⟨c, rest, rfl, hc⟩ := hdigits.exists_cons
    exact hstart rfl (.inl hc)
  | @pointed whole fraction _ _ hdigits =>
    rcases whole with _ | ⟨c, whole⟩
    · exact hstart rfl (.inr rfl)
    · exact hstart rfl (.inl (hdigits.2 c List.mem_cons_self))

theorem IsSign.takeSign_append_word {sign word letters : List Char} {negative : Bool}
    {letter : Char} (h : IsSign sign negative) (hword : word.map Char.toLower = letter :: letters)
    (hminus : letter ≠ '-') (hplus : letter ≠ '+') :
    takeSign (sign ++ word) = (negative, word) := by
  rcases word with _ | ⟨c, rest⟩
  · cases hword
  · obtain ⟨rfl, -⟩ := List.cons.inj hword
    refine h.takeSign_append rest ?_ ?_
    · rintro rfl
      exact hminus rfl
    · rintro rfl
      exact hplus rfl

/-! ### Blanks -/

/-- There is nothing in the text that could be taken for a blank around it. -/
def IsVisible (text : List Char) : Prop := ∀ c ∈ text, Text.isBlank c = false

theorem isVisible_iff_all {text : List Char} :
    IsVisible text ↔ text.all (!Text.isBlank ·) = true := by
  simp [IsVisible, List.all_eq_true]

theorem isVisible_nil : IsVisible [] := List.forall_mem_nil _

theorem isVisible_append {front rest : List Char} :
    IsVisible (front ++ rest) ↔ IsVisible front ∧ IsVisible rest := List.forall_mem_append

theorem isVisible_cons {c : Char} {rest : List Char} :
    IsVisible (c :: rest) ↔ Text.isBlank c = false ∧ IsVisible rest := List.forall_mem_cons

theorem IsSign.isVisible {sign : List Char} {negative : Bool} (h : IsSign sign negative) :
    IsVisible sign := by
  cases h with
  | absent => exact isVisible_nil
  | plus => exact isVisible_cons.mpr ⟨by decide, isVisible_nil⟩
  | minus => exact isVisible_cons.mpr ⟨by decide, isVisible_nil⟩

theorem IsDigits.isVisible {digits : List Char} (h : IsDigits digits) : IsVisible digits := by
  intro c hc
  have hcode := toNat_of_isDigit (h.2 c hc)
  exact Text.isBlank_of_visible (by omega) (by omega)

theorem IsExponent.isVisible {s : List Char} {e : Int} (h : IsExponent s e) : IsVisible s := by
  cases h with
  | absent => exact isVisible_nil
  | marked hmark hsign hdigits =>
    refine isVisible_cons.mpr ⟨?_, isVisible_append.mpr ⟨hsign.isVisible, hdigits.isVisible⟩⟩
    rcases hmark with rfl | rfl <;> decide

theorem IsDecimal.isVisible {negative : Bool} {s : List Char} {d : Decimal}
    (h : IsDecimal negative s d) : IsVisible s := by
  cases h with
  | whole hdigits he => exact isVisible_append.mpr ⟨hdigits.isVisible, he.isVisible⟩
  | pointed hdigits he =>
    obtain ⟨hwhole, hfraction⟩ := isVisible_append.mp hdigits.isVisible
    exact isVisible_append.mpr ⟨hwhole, isVisible_cons.mpr
      ⟨by decide, isVisible_append.mpr ⟨hfraction, he.isVisible⟩⟩⟩

/-- What becomes of a visible character in the lower case was visible before. -/
theorem isVisible_of_map_toLower {word : List Char}
    (h : (word.map Char.toLower).all (fun c ↦ 33 ≤ c.toNat ∧ c.toNat ≤ 126) = true) :
    IsVisible word := by
  intro c hc
  have hlower := of_decide_eq_true (List.all_eq_true.mp h _ (List.mem_map_of_mem hc))
  rw [Char.toLower] at hlower
  split at hlower
  · rename_i hcase
    have hlow : 65 ≤ c.toNat := UInt32.le_iff_toNat_le.mp hcase.1
    have hhigh : c.toNat ≤ 90 := UInt32.le_iff_toNat_le.mp hcase.2
    exact Text.isBlank_of_visible (by omega) (by omega)
  · exact Text.isBlank_of_visible hlower.1 hlower.2

theorem IsNumber.isVisible {s : List Char} {view : NumberView} (h : IsNumber s view) :
    IsVisible s := by
  cases h with
  | infinite hsign hword =>
    refine isVisible_append.mpr ⟨hsign.isVisible, isVisible_of_map_toLower ?_⟩
    rcases hword with hword | hword
    · rw [hword]
      decide
    · rw [hword]
      decide
  | nan hsign hword =>
    refine isVisible_append.mpr ⟨hsign.isVisible, isVisible_of_map_toLower ?_⟩
    rw [hword]
    decide
  | finite hsign hd => exact isVisible_append.mpr ⟨hsign.isVisible, hd.isVisible⟩

theorem IsCount.isVisible {text : List Char} {n : Nat} (h : IsCount text n) : IsVisible text := by
  obtain ⟨digits, rfl | rfl, hdigits, -, -⟩ := h
  · exact hdigits.isVisible
  · exact isVisible_cons.mpr ⟨by decide, hdigits.isVisible⟩

namespace Numeral

variable {α : Type} [Numeral α]

/-- The number is the one that the text stands for. -/
def IsText (text : List Char) (x : α) : Prop := ∃ view, IsNumber text view ∧ ofView view = x

/-- A number is read exactly from its texts. -/
theorem read?_eq_some_iff {text : String} {x : α} :
    read? text = some x ↔ IsText text.toList x := by
  constructor
  · intro h
    obtain ⟨sign, hsign, htext⟩ := exists_isSign text.toList
    rw [read?] at h
    rcases htake : takeSign text.toList with ⟨negative, word⟩
    simp only [htake] at h hsign htext
    have hlist {s : String} (heq : String.ofList (word.map Char.toLower) = s) :
        word.map Char.toLower = s.toList := by
      rw [← heq, String.toList_ofList]
    rw [htext]
    split at h
    · rename_i heq
      exact ⟨_, .infinite hsign (.inl (hlist heq)), Option.some.inj h⟩
    · rename_i heq
      exact ⟨_, .infinite hsign (.inr (hlist heq)), Option.some.inj h⟩
    · rename_i heq
      exact ⟨_, .nan hsign (hlist heq), Option.some.inj h⟩
    · obtain ⟨d, hd, rfl⟩ := Option.map_eq_some_iff.mp h
      exact ⟨_, .finite hsign (readDecimal?_eq_some_iff.mp hd), rfl⟩
  · rintro ⟨view, h, rfl⟩
    rw [read?]
    generalize text.toList = s at h
    cases h with
    | infinite hsign hword =>
      rcases hword with hword | hword
      · simp only [hsign.takeSign_append_word hword (by decide) (by decide), hword,
          String.ofList_toList]
        rfl
      · simp only [hsign.takeSign_append_word hword (by decide) (by decide), hword,
          String.ofList_toList]
        rfl
    | nan hsign hword =>
      simp only [hsign.takeSign_append_word hword (by decide) (by decide), hword,
        String.ofList_toList]
      rfl
    | finite hsign hd =>
      obtain ⟨c, rest, rfl, hminus, hplus, hi, hn⟩ := hd.exists_cons
      simp only [hsign.takeSign_append rest hminus hplus]
      have hfirst {s : String} {letter : Char} (hs : s.toList.head? = some letter)
          (heq : String.ofList ((c :: rest).map Char.toLower) = s) : c.toLower = letter := by
        rw [← heq, String.toList_ofList] at hs
        exact Option.some.inj hs
      split
      · rename_i heq
        exact absurd (hfirst rfl heq) hi
      · rename_i heq
        exact absurd (hfirst rfl heq) hi
      · rename_i heq
        exact absurd (hfirst rfl heq) hn
      · rw [readDecimal?_eq_some_iff.mpr hd]
        rfl

end Numeral

end OutlierScoring
