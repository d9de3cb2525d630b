import Mathlib.Tactic.Ring
import OutlierScoring.Proofs.Number.Decimals

/-!
# Digits around a point

The digits of an integer, and the digits of a decimal before and after its point. Documents of all
kinds hold the same texts of numbers. What the parts of such a text are (`PositionalParts`) is said
here, and what a reader makes of them is said where the reader is.
-/

namespace OutlierScoring

/-! ### Integers -/

/-- Only zero is written with a zero in front. -/
theorem head?_toDigits (n : Nat) :
    (Nat.toDigits 10 n).head? ≠ some '0' ∨ (Nat.toDigits 10 n).length = 1 := by
  rcases Nat.eq_zero_or_pos n with rfl | hpos
  · exact .inr rfl
  · exact .inl (head?_toDigits_ne_zero hpos)

/-- A sign and a size make up an integer. -/
theorem signed_natAbs (n : Int) : (if n < 0 then -(n.natAbs : Int) else n.natAbs) = n := by
  split
  · rename_i hneg
    rw [Int.ofNat_natAbs_of_nonpos (Int.le_of_lt hneg), Int.neg_neg]
  · rename_i hneg
    exact Int.natAbs_of_nonneg (Int.not_lt.mp hneg)

theorem toList_toString_int (n : Int) :
    (toString n).toList = (if n < 0 then ['-'] else []) ++ Nat.toDigits 10 n.natAbs := by
  rcases n with n | n
  · show (Nat.repr n).toList = _
    simp
  · show ("-" ++ Nat.repr (n + 1)).toList = _
    rw [if_pos (Int.negSucc_lt_zero n), String.toList_append, Nat.toList_repr]
    rfl

/-! ### Decimals -/

theorem toList_signed (negative : Bool) (body : String) :
    (if negative then "-" ++ body else body).toList =
      (if negative then ['-'] else []) ++ body.toList := by
  cases negative
  · rfl
  · exact String.toList_append

/-- Only zero has no digits before its trailing zeros. -/
theorem trim_digits_pos_or (d : Decimal) : 0 < d.trim.digits ∨ d.trim.exponent = 0 := by
  rcases d.trim_digits with hdigits | ⟨-, hexponent⟩
  · exact .inl (by omega)
  · exact .inr hexponent

/-- The decimal that the digits around a point stand for. A whole number has a zero after it. -/
def Decimal.pointed (d : Decimal) : Decimal :=
  if 0 ≤ d.exponent then ⟨d.negative, d.digits * 10 ^ (d.exponent.toNat + 1), -1⟩ else d

@[simp]
theorem Decimal.trim_pointed (d : Decimal) : d.pointed.trim = d.trim := by
  rw [pointed]
  split
  · rename_i hexponent
    rw [trim_shift]
    congr 2
    omega
  · rfl

/-- Texts of a whole part and a fraction that are read as the given real. -/
structure PositionalParts (d : Decimal) (whole fraction : List Char) : Prop where
  isDigit_whole : ∀ c ∈ whole, c.isDigit = true
  isDigit_fraction : ∀ c ∈ fraction, c.isDigit = true
  whole_ne_nil : whole ≠ []
  fraction_ne_nil : fraction ≠ []
  head?_whole : whole.head? ≠ some '0' ∨ whole.length = 1
  decimal_eq : (⟨d.negative, digitsValue (digitsValue 0 whole) fraction, -fraction.length⟩ :
    Decimal) = d.pointed

theorem isDigit_of_mem_replicate {k : Nat} : ∀ c ∈ List.replicate k '0', c.isDigit = true :=
  fun _ hc ↦ (List.eq_of_mem_replicate hc) ▸ rfl

/-- A real whose exponent is not negative is written as a whole number. -/
theorem positionalParts_whole (d : Decimal) (h : 0 < d.digits ∨ d.exponent = 0)
    (hexponent : 0 ≤ d.exponent) :
    PositionalParts d (Nat.toDigits 10 d.digits ++ List.replicate d.exponent.toNat '0') ['0'] where
  isDigit_whole c hc :=
    (List.mem_append.mp hc).elim (isDigit_of_mem_toDigits c) (isDigit_of_mem_replicate c)
  isDigit_fraction _ hc := (List.mem_singleton.mp hc) ▸ rfl
  whole_ne_nil := by simp
  fraction_ne_nil := nofun
  head?_whole := by
    rcases h with hpos | hzero
    · have hne : (Nat.toDigits 10 d.digits).head? ≠ none := by simp
      rw [List.head?_append, Option.or_of_isSome (Option.isSome_iff_ne_none.mpr hne)]
      exact .inl (head?_toDigits_ne_zero hpos)
    · rw [hzero]
      simpa using head?_toDigits d.digits
  decimal_eq := by
    rw [Decimal.pointed, if_pos hexponent, digitsValue_append, digitsValue_toDigits,
      digitsValue_replicate_zero, show ['0'] = List.replicate 1 '0' from rfl,
      digitsValue_replicate_zero]
    congr 1
    ring

/-- Digits with zeros in front can be divided at a point. -/
theorem positionalParts_divided (d : Decimal) {padded : List Char}
    (hpadded : ∀ c ∈ padded, c.isDigit = true) (hvalue : digitsValue 0 padded = d.digits)
    (hexponent : d.exponent < 0) (hlength : d.exponent.natAbs < padded.length)
    (hhead : padded.head? ≠ some '0' ∨ padded.length = d.exponent.natAbs + 1) :
    PositionalParts d (padded.take (padded.length - d.exponent.natAbs))
      (padded.drop (padded.length - d.exponent.natAbs)) where
  isDigit_whole c hc := hpadded c (List.mem_of_mem_take hc)
  isDigit_fraction c hc := hpadded c (List.mem_of_mem_drop hc)
  whole_ne_nil := by
    rw [ne_eq, List.take_eq_nil_iff, ← List.length_eq_zero_iff]
    omega
  fraction_ne_nil := by
    rw [ne_eq, List.drop_eq_nil_iff]
    omega
  head?_whole := by
    rw [List.length_take, List.head?_take, if_neg (by omega)]
    exact hhead.imp id (by omega)
  decimal_eq := by
    rw [Decimal.pointed, if_neg (by omega), ← digitsValue_append, List.take_append_drop, hvalue,
      List.length_drop]
    congr 1
    omega

/-- The parts of a real in positional form stand for it. -/
theorem exists_parts_writePositional (d : Decimal) (h : 0 < d.digits ∨ d.exponent = 0) :
    ∃ whole fraction, (d.writePositional ".0").toList = whole ++ '.' :: fraction ∧
      PositionalParts d whole fraction := by
  rw [Decimal.writePositional]
  split
  · rename_i hexponent
    exact ⟨_, _, by simp, positionalParts_whole d h hexponent⟩
  · rename_i hexponent
    refine ⟨_, _, String.toList_ofList, positionalParts_divided d ?_ ?_ (by omega) ?_ ?_⟩
    · exact fun c hc ↦
        (List.mem_append.mp hc).elim (isDigit_of_mem_replicate c) (isDigit_of_mem_toDigits c)
    · rw [digitsValue_append, digitsValue_replicate_zero, Nat.mul_zero, digitsValue_toDigits]
    · rw [List.length_append, List.length_replicate]
      omega
    · by_cases hlong : d.exponent.natAbs + 1 ≤ (Nat.toDigits 10 d.digits).length
      · rw [Nat.sub_eq_zero_of_le hlong]
        exact .inl (head?_toDigits_ne_zero (by omega))
      · rw [List.length_append, List.length_replicate]
        exact .inr (by omega)

end OutlierScoring
