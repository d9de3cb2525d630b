import OutlierScoring.Number.Scalar

/-!
# Quantiles

The `q`-quantile of a list of numbers: the number at the rank `q · (n - 1)` of the sorted list, with
ranks between two positions interpolated linearly.
-/

namespace OutlierScoring

variable {α : Type} [Scalar α]

/-- The numbers in ascending order. -/
def ascending (xs : List α) : List α := xs.mergeSort fun a b ↦ a ≤ b

/-- The number at a rank of a list, which may lie between two positions. -/
def atRank? (xs : List α) (rank : α) : Option α := do
  let position := Scalar.floor rank
  let low ← xs[position]?
  let high ← xs[Scalar.ceil rank]?
  return low + (high - low) * (rank - (position : α))

/-- The `q`-quantile of a list; there is none if the list is empty. -/
def quantile? (q : α) (xs : List α) : Option α :=
  atRank? (ascending xs) (q * ((xs.length - 1 : Nat) : α))

end OutlierScoring
