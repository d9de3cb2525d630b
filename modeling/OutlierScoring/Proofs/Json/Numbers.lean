import OutlierScoring.Json.Parser
import OutlierScoring.Json.Printer
import OutlierScoring.Proofs.Number.Positional

/-!
# Numbers of documents are read back

A number that was written is read back as it is, up to the trailing zeros of a real, which
`Number.canonical` takes away (`number?_write`). What follows the number may be anything that cannot
continue it.
-/

namespace OutlierScoring.Json

/-- The number that is read back for a number. -/
def Number.canonical : Number → Number
  | .integer n => .integer n
  | .real d => .real d.trim

/-- The text does not continue a number. -/
def Stops (rest : List Char) : Prop :=
  ∀ c ∈ rest.head?, c.isDigit = false ∧ c ≠ '.' ∧ c ≠ 'e' ∧ c ≠ 'E'

theorem stops_nil : Stops [] := nofun

theorem stops_cons {c : Char} {rest : List Char}
    (h : c.isDigit = false ∧ c ≠ '.' ∧ c ≠ 'e' ∧ c ≠ 'E') : Stops (c :: rest) :=
  fun _ hc ↦ (Option.mem_some.mp hc) ▸ h

variable {rest : List Char}

theorem Stops.head?_ne_point (h : Stops rest) : rest.head? ≠ some '.' :=
  fun hpoint ↦ (h '.' hpoint).2.1 rfl

theorem Stops.noDigit (h : Stops rest) : NoDigit rest := fun c hc ↦ (h c hc).1

/-! ### The parts of a number -/

theorem wholePart?_append {digits : List Char} (hdigits : ∀ c ∈ digits, c.isDigit = true)
    (hne : digits ≠ []) (hzero : digits.head? ≠ some '0' ∨ digits.length = 1) (h : NoDigit rest) :
    wholePart? (digits ++ rest) = some (digits, rest) := by
  rw [wholePart?, spanDigits_append hdigits h]
  split
  · rename_i heq
    exact absurd (Prod.mk.inj heq).1 hne
  · rename_i heq
    obtain ⟨rfl, -⟩ := Prod.mk.inj heq
    simp at hzero
  · rename_i heq
    obtain ⟨rfl, rfl⟩ := Prod.mk.inj heq
    rfl

theorem fractionPart?_none (h : rest.head? ≠ some '.') :
    fractionPart? rest = some (none, rest) := by
  unfold fractionPart?
  split
  · exact absurd rfl h
  · rfl

theorem fractionPart?_some {digits : List Char} (hdigits : ∀ c ∈ digits, c.isDigit = true)
    (hne : digits ≠ []) (h : NoDigit rest) :
    fractionPart? ('.' :: digits ++ rest) = some (some digits, rest) := by
  rw [List.cons_append, fractionPart?, spanDigits_append hdigits h]
  split
  · rename_i heq
    exact absurd (Prod.mk.inj heq).1 hne
  · rename_i heq
    obtain ⟨rfl, rfl⟩ := Prod.mk.inj heq
    rfl

theorem exponentPart?_none (h : Stops rest) : exponentPart? rest = some (none, rest) := by
  rcases rest with _ | ⟨c, rest⟩
  · rfl
  · obtain ⟨-, -, he, hE⟩ := h c rfl
    rw [exponentPart?, if_neg (not_or.mpr ⟨he, hE⟩)]

/-- An exponent as it is written, with its sign. -/
theorem exponentPart?_some (exponent : Int) (h : NoDigit rest) :
    exponentPart? ('e' :: (if exponent < 0 then '-' else '+') ::
      (Nat.toDigits 10 exponent.natAbs ++ rest)) = some (some exponent, rest) := by
  have hsign : takeSign ((if exponent < 0 then '-' else '+') ::
      (Nat.toDigits 10 exponent.natAbs ++ rest)) =
        (decide (exponent < 0), Nat.toDigits 10 exponent.natAbs ++ rest) := by
    by_cases hneg : exponent < 0 <;> simp [hneg, takeSign]
  rw [exponentPart?, if_pos (.inl rfl)]
  simp only [hsign, spanDigits_append isDigit_of_mem_toDigits h]
  split
  · rename_i heq
    exact absurd (Prod.mk.inj heq).1 Nat.toDigits_ne_nil
  · rename_i heq
    obtain ⟨rfl, rfl⟩ := Prod.mk.inj heq
    rw [digitsValue_toDigits]
    simp only [decide_eq_true_eq]
    rw [signed_natAbs]

/-- The number that the parts of its text make up. -/
def Number.ofParts (negative : Bool) (whole : List Char) (fraction : Option (List Char))
    (exponent : Option Int) : Number :=
  match fraction, exponent with
  | none, none =>
    if negative then
      if digitsValue 0 whole = 0 then .real ⟨true, 0, 0⟩ else .integer (-digitsValue 0 whole)
    else .integer (digitsValue 0 whole)
  | fraction, exponent =>
    .real (Decimal.trim ⟨negative, digitsValue (digitsValue 0 whole) (fraction.getD []),
      exponent.getD 0 - (fraction.getD []).length⟩)

theorem number?_eq_ofParts (negative : Bool) {s s₁ s₂ s₃ whole : List Char}
    {fraction : Option (List Char)} {exponent : Option Int} (hsign : s.head? ≠ some '-')
    (hwhole : wholePart? s = some (whole, s₁)) (hfraction : fractionPart? s₁ = some (fraction, s₂))
    (hexponent : exponentPart? s₂ = some (exponent, s₃)) :
    number? ((if negative then ['-'] else []) ++ s) =
      some (.ofParts negative whole fraction exponent, s₃) := by
  have hunsigned : ∀ rest, s ≠ '-' :: rest := fun rest heq ↦ hsign (heq ▸ rfl)
  rcases negative with _ | _
  · show number? s = _
    rw [number?]
    · simp only [hwhole, hfraction, hexponent, bind, Option.bind]
      rcases fraction with _ | fraction <;> rcases exponent with _ | exponent <;> rfl
    · exact hunsigned
  · show number? ('-' :: s) = _
    rw [number?]
    simp only [hwhole, hfraction, hexponent, bind, Option.bind]
    rcases fraction with _ | fraction <;> rcases exponent with _ | exponent
    · by_cases hzero : digitsValue 0 whole = 0 <;> simp [hzero, Number.ofParts, pure]
    · rfl
    · rfl
    · rfl

/-! ### Integers -/

/-- What starts with digits does not start with a sign. -/
theorem head?_ne_minus {digits : List Char} (hdigits : ∀ c ∈ digits, c.isDigit = true)
    (hne : digits ≠ []) (rest : List Char) : (digits ++ rest).head? ≠ some '-' := by
  rcases digits with _ | ⟨c, digits⟩
  · exact absurd rfl hne
  · intro heq
    have hc := hdigits c List.mem_cons_self
    rw [Option.some.inj heq] at hc
    exact absurd hc (by decide)

theorem number?_integer (n : Int) (h : Stops rest) :
    number? ((toString n).toList ++ rest) = some (.integer n, rest) := by
  have hwhole := wholePart?_append isDigit_of_mem_toDigits Nat.toDigits_ne_nil
    (head?_toDigits n.natAbs) h.noDigit
  have hsign := head?_ne_minus (@isDigit_of_mem_toDigits n.natAbs) Nat.toDigits_ne_nil rest
  have hparts := number?_eq_ofParts (decide (n < 0)) hsign hwhole
    (fractionPart?_none h.head?_ne_point) (exponentPart?_none h)
  rw [toList_toString_int, List.append_assoc]
  simp only [decide_eq_true_eq] at hparts
  rw [hparts, Number.ofParts, digitsValue_toDigits]
  have hvalue := signed_natAbs n
  split
  · rename_i hneg
    -- Zero has no sign, so this is not the minus zero that would be read as a real.
    have hne : n.natAbs ≠ 0 := Int.natAbs_ne_zero.mpr (Int.ne_of_lt (of_decide_eq_true hneg))
    rw [if_pos (of_decide_eq_true hneg)] at hvalue
    rw [if_neg hne, hvalue]
  · rename_i hneg
    rw [if_neg (fun h ↦ hneg (decide_eq_true h))] at hvalue
    rw [hvalue]

/-! ### Reals -/

theorem Number.ofParts_positional {d : Decimal} {whole fraction : List Char}
    (h : PositionalParts d whole fraction) :
    Number.ofParts d.negative whole (some fraction) none = .real d.trim := by
  rw [← d.trim_pointed, ← h.decimal_eq, Number.ofParts]
  · simp
  · exact nofun

/-- The parts of a real with an exponent stand for it. -/
theorem exists_parts_writeScientific (d : Decimal) :
    ∃ c fraction, d.writeScientific.toList =
        c :: (if fraction.isEmpty then [] else '.' :: fraction) ++
        ('e' :: (if d.magnitude < 0 then '-' else '+') :: Nat.toDigits 10 d.magnitude.natAbs) ∧
      c.isDigit = true ∧ (∀ c ∈ fraction, c.isDigit = true) ∧
      Number.ofParts d.negative [c] (if fraction.isEmpty then none else some fraction)
        (some d.magnitude) = .real d.trim := by
  have hlength := @Nat.length_toDigits_pos 10 d.digits
  have hdigits := @isDigit_of_mem_toDigits d.digits
  have hmagnitude : d.magnitude = d.exponent + (Nat.toDigits 10 d.digits).length - 1 := rfl
  have hvalue := digitsValue_toDigits d.digits
  have hexponent : ((if d.magnitude < 0 then "e-" else "e+") ++
      toString d.magnitude.natAbs).toList =
        'e' :: (if d.magnitude < 0 then '-' else '+') :: Nat.toDigits 10 d.magnitude.natAbs := by
    split <;> simp
  rw [Decimal.writeScientific]
  simp only [String.append_assoc]
  rw [String.toList_append, hexponent, String.toList_ofList]
  -- Nothing more is needed of the digits than that there are some, and which number they make.
  generalize Nat.toDigits 10 d.digits = digits at hlength hdigits hmagnitude hvalue ⊢
  rcases digits with _ | ⟨c, _ | ⟨c', digits⟩⟩
  · exact absurd hlength (by decide)
  · refine ⟨c, [], rfl, hdigits c List.mem_cons_self,
      fun _ hnil ↦ absurd hnil List.not_mem_nil, ?_⟩
    simp only [Number.ofParts, List.isEmpty_nil, if_true, Option.getD_none, Option.getD_some,
      hmagnitude, hvalue]
    congr 3
    simp
  · refine ⟨c, c' :: digits, rfl, hdigits c List.mem_cons_self,
      fun a ha ↦ hdigits a (List.mem_cons_of_mem _ ha), ?_⟩
    · simp only [List.isEmpty_cons, Bool.false_eq_true, if_false]
      simp only [Number.ofParts, Option.getD_some, hmagnitude, ← digitsValue_append,
        List.singleton_append, hvalue]
      congr 3
      simp
      omega

/-! ### All numbers -/

theorem toList_write (d : Decimal) :
    (d.write .document).toList = (if d.trim.negative then ['-'] else []) ++
      (if d.trim.digits = 0 ∨ (-5 ≤ d.trim.magnitude ∧ d.trim.magnitude ≤ 15)
        then d.trim.writePositional ".0" else d.trim.writeScientific).toList := by
  rw [Decimal.write]
  exact toList_signed d.trim.negative _

/-- A real in positional form, behind its sign. -/
theorem number?_positional (d : Decimal) (hd : 0 < d.digits ∨ d.exponent = 0) (h : Stops rest) :
    number? ((if d.negative then ['-'] else []) ++ ((d.writePositional ".0").toList ++ rest)) =
      some (.real d.trim, rest) := by
  obtain ⟨whole, fraction, htext, hparts⟩ := exists_parts_writePositional d hd
  have hsign := head?_ne_minus hparts.isDigit_whole hparts.whole_ne_nil
    ('.' :: fraction ++ rest)
  have hwhole : wholePart? (whole ++ ('.' :: fraction ++ rest)) =
      some (whole, '.' :: fraction ++ rest) :=
    wholePart?_append hparts.isDigit_whole hparts.whole_ne_nil hparts.head?_whole (noDigit_cons rfl)
  have hfraction := fractionPart?_some hparts.isDigit_fraction hparts.fraction_ne_nil h.noDigit
  rw [htext, List.append_assoc, number?_eq_ofParts d.negative hsign hwhole hfraction
    (exponentPart?_none h), Number.ofParts_positional hparts]

/-- A real with an exponent, behind its sign. -/
theorem number?_scientific (d : Decimal) (h : Stops rest) :
    number? ((if d.negative then ['-'] else []) ++ (d.writeScientific.toList ++ rest)) =
      some (.real d.trim, rest) := by
  obtain ⟨c, fraction, htext, hc, hfraction, hparts⟩ := exists_parts_writeScientific d
  have hdigit : ∀ a ∈ [c], a.isDigit = true := fun a ha ↦ (List.mem_singleton.mp ha) ▸ hc
  have hsign := head?_ne_minus hdigit (List.cons_ne_nil c [])
  have hexponent := exponentPart?_some d.magnitude h.noDigit
  rw [htext, List.cons_append, List.cons_append, List.append_assoc]
  -- A single digit is written without a point.
  rcases fraction with _ | ⟨a, fraction⟩
  · have hwhole := wholePart?_append hdigit (List.cons_ne_nil c []) (.inr rfl)
      (noDigit_cons rfl : NoDigit ('e' :: (if d.magnitude < 0 then '-' else '+') ::
        (Nat.toDigits 10 d.magnitude.natAbs ++ rest)))
    have hnumber := number?_eq_ofParts d.negative (hsign _) hwhole
      (fractionPart?_none nofun) hexponent
    rw [show Number.ofParts d.negative [c] none _ = _ from hparts] at hnumber
    exact hnumber
  · have hwhole := wholePart?_append hdigit (List.cons_ne_nil c []) (.inr rfl)
      (noDigit_cons rfl : NoDigit ('.' :: (a :: fraction) ++
        'e' :: (if d.magnitude < 0 then '-' else '+') ::
          (Nat.toDigits 10 d.magnitude.natAbs ++ rest)))
    have hnumber := number?_eq_ofParts d.negative (hsign _) hwhole
      (fractionPart?_some hfraction nofun (noDigit_cons rfl)) hexponent
    rw [show Number.ofParts d.negative [c] (some (a :: fraction)) _ = _ from hparts] at hnumber
    exact hnumber

theorem number?_real (d : Decimal) (h : Stops rest) :
    number? ((d.write .document).toList ++ rest) = some (.real d.trim, rest) := by
  rw [toList_write, List.append_assoc]
  by_cases hrange : d.trim.digits = 0 ∨ (-5 ≤ d.trim.magnitude ∧ d.trim.magnitude ≤ 15)
  · rw [if_pos hrange, number?_positional d.trim (trim_digits_pos_or d) h, Decimal.trim_trim]
  · rw [if_neg hrange, number?_scientific d.trim h, Decimal.trim_trim]

/-- A number that was written is read back, up to trailing zeros. -/
theorem number?_write (n : Number) (h : Stops rest) :
    number? (n.write.toList ++ rest) = some (n.canonical, rest) := by
  rcases n with n | d
  · exact number?_integer n h
  · exact number?_real d h

/-- The text of a number starts with a sign or a digit. -/
theorem exists_write_eq_cons (n : Number) :
    ∃ c tail, n.write.toList = c :: tail ∧ (c = '-' ∨ c.isDigit = true) := by
  have hcons : ∀ (negative : Bool) {digits : List Char}, (∀ c ∈ digits, c.isDigit = true) →
      digits ≠ [] → ∀ tail, ∃ c tail', (if negative then ['-'] else []) ++ (digits ++ tail) =
        c :: tail' ∧ (c = '-' ∨ c.isDigit = true) := by
    rintro (_ | _) (_ | ⟨c, digits⟩) hdigits hne tail
    · exact absurd rfl hne
    · exact ⟨c, digits ++ tail, rfl, .inr (hdigits c List.mem_cons_self)⟩
    · exact absurd rfl hne
    · exact ⟨'-', c :: digits ++ tail, rfl, .inl rfl⟩
  rcases n with n | d
  · have h := hcons (decide (n < 0)) (@isDigit_of_mem_toDigits n.natAbs) Nat.toDigits_ne_nil []
    rw [List.append_nil] at h
    simp only [decide_eq_true_eq] at h
    rw [Number.write, toList_toString_int]
    exact h
  · rw [Number.write, toList_write]
    by_cases hrange : d.trim.digits = 0 ∨ (-5 ≤ d.trim.magnitude ∧ d.trim.magnitude ≤ 15)
    · obtain ⟨whole, fraction, htext, hparts⟩ :=
        exists_parts_writePositional d.trim (trim_digits_pos_or d)
      rw [if_pos hrange, htext]
      exact hcons _ hparts.isDigit_whole hparts.whole_ne_nil _
    · obtain ⟨c, fraction, htext, hc, -, -⟩ := exists_parts_writeScientific d.trim
      have hdigit : ∀ a ∈ [c], a.isDigit = true := fun a ha ↦ (List.mem_singleton.mp ha) ▸ hc
      rw [if_neg hrange, htext]
      exact hcons _ hdigit (List.cons_ne_nil c []) _

end OutlierScoring.Json
