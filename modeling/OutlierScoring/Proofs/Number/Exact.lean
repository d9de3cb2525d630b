import Mathlib
import OutlierScoring.Proofs.Number.Lawful

/-!
# Exact numbers

Laws about quantiles hold where nothing is rounded. An `ExactScalar` has a real number for each of
its numbers, and the operations that ranks and quantiles are computed with are those of the real
numbers. Square roots, logarithms and powers are left open: a quantile is one of any scores. The
real numbers themselves are exact numbers.
-/

namespace OutlierScoring

/-- Numbers that stand for real numbers and are not rounded. -/
class ExactScalar (α : Type) [Scalar α] where
  /-- The real number that a number stands for. -/
  value : α → ℝ
  value_injective : Function.Injective value
  value_zero : value 0 = 0
  value_one : value 1 = 1
  value_natCast (n : Nat) : value n = n
  value_add (a b : α) : value (a + b) = value a + value b
  value_sub (a b : α) : value (a - b) = value a - value b
  value_mul (a b : α) : value (a * b) = value a * value b
  value_div (a b : α) : value (a / b) = value a / value b
  value_neg (a : α) : value (-a) = -value a
  lt_iff (a b : α) : a < b ↔ value a < value b
  le_iff (a b : α) : a ≤ b ↔ value a ≤ value b
  floor_eq (a : α) : Scalar.floor a = ⌊value a⌋₊
  ceil_eq (a : α) : Scalar.ceil a = ⌈value a⌉₊
  isNaN_eq (a : α) : Scalar.isNaN a = false

namespace ExactScalar

variable {α : Type} [Scalar α] [ExactScalar α]

attribute [simp] value_zero value_one value_natCast value_add value_sub value_mul value_div
  value_neg floor_eq ceil_eq isNaN_eq

instance : LawfulOrder α where
  sub_neg_iff a b := by rw [lt_iff, lt_iff, value_sub, value_zero, sub_neg]
  neg_lt_neg_iff a b := by rw [lt_iff, lt_iff, value_neg, value_neg, neg_lt_neg_iff]

end ExactScalar

/-- The arithmetic of the real numbers, in which every number is finite. -/
noncomputable instance : Scalar ℝ where
  decidableLT := inferInstance
  decidableLE := inferInstance
  mulAdd a b c := a * b + c
  sqrt := Real.sqrt
  log := Real.log
  exp2 x := 2 ^ x
  floor x := ⌊x⌋₊
  ceil x := ⌈x⌉₊
  isFinite _ := true
  isNaN _ := false
  infinity := 0

noncomputable instance : ExactScalar ℝ where
  value := id
  value_injective := Function.injective_id
  value_zero := rfl
  value_one := rfl
  value_natCast _ := rfl
  value_add _ _ := rfl
  value_sub _ _ := rfl
  value_mul _ _ := rfl
  value_div _ _ := rfl
  value_neg _ := rfl
  lt_iff _ _ := Iff.rfl
  le_iff _ _ := Iff.rfl
  floor_eq _ := rfl
  ceil_eq _ := rfl
  isNaN_eq _ := rfl

theorem Scalar.sum_real (xs : List ℝ) : Scalar.sum xs = xs.sum := List.sum_eq_foldl.symm

/-- The real number that a decimal stands for. -/
noncomputable def Decimal.toReal (d : Decimal) : ℝ :=
  (if d.negative then -1 else 1) * d.digits * 10 ^ d.exponent

open Classical in
/-- The real numbers that are decimals are written as such; there are no texts for the others. -/
noncomputable instance : Numeral ℝ where
  view x := if h : ∃ d : Decimal, d.toReal = x then .finite h.choose else .nan
  ofDecimal := Decimal.toReal
  nan := 0
  infinite _ := 0

end OutlierScoring
