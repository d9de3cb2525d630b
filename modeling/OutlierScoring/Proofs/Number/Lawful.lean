import OutlierScoring.Number.Numeral

/-!
# The laws of numbers

A `LawfulNumeral` has a decimal for each of its finite numbers, and for no others, and the decimal
stands for that number. This is all that a file of numbers has to rely on.

A `LawfulOrder` can be asked for by differences and turned around by negatives. This is all that the
verdicts of a model have to rely on.
-/

namespace OutlierScoring

/-- Numbers whose decimals stand for them. -/
class LawfulNumeral (α : Type) [Scalar α] [Numeral α] : Prop where
  /-- Exactly the finite numbers have a decimal. -/
  isFinite_iff (x : α) : Scalar.isFinite x = true ↔ ∃ d, Numeral.view x = .finite d
  /-- Trailing zeros of the decimal do not matter. -/
  ofDecimal_trim (x : α) (d : Decimal) : Numeral.view x = .finite d → Numeral.ofDecimal d.trim = x

/-- Numbers whose differences and negatives tell their order. -/
class LawfulOrder (α : Type) [Scalar α] : Prop where
  /-- A difference is negative exactly if the first number is below the second. -/
  sub_neg_iff (a b : α) : a - b < 0 ↔ a < b
  /-- Negatives stand in the opposite order. -/
  neg_lt_neg_iff (a b : α) : -a < -b ↔ b < a

end OutlierScoring
