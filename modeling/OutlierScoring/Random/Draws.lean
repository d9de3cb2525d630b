/-!
# Random draws

Tree building asks for three kinds of draws: an index up to a bound, a fraction, and a sample of
distinct positions. `Draws` is the interface to whatever supplies them, over a state that is passed
along. Nothing about chance is in it: a law of tree building that holds for every `Draws` and every
state holds for every outcome of the draws.

Indices come with their bounds in the type, so a list stays a permutation of itself under
`Draws.shuffle` whatever is drawn.
-/

namespace OutlierScoring

/-- A supply of draws from a state `σ`, with fractions in `α`. -/
structure Draws (σ α : Type) where
  /-- An index from `0` to `bound`, both included. -/
  index (bound : Nat) : σ → Fin (bound + 1) × σ
  /-- A number from `0`, included, to `1`, not included. -/
  fraction : σ → α × σ
  /-- Positions of a sample, `amount` of `length` many. -/
  sample (length amount : Nat) : σ → List (Fin length) × σ

/-- A supply of draws that starts anew for every seed. -/
structure Chance (σ α : Type) where
  draws : Draws σ α
  /-- Where the draws of a seed start. -/
  start : UInt64 → σ

namespace Draws

variable {σ α β : Type}

/-- Exchanges the positions `i`, `i - 1`, …, `1` each with one that is drawn from those up to it. -/
def shuffleFrom (draws : Draws σ α) {n : Nat} : (i : Nat) → i < n → Vector β n → σ → Vector β n × σ
  | 0, _, items, s => (items, s)
  | i + 1, h, items, s =>
    let (j, s) := draws.index (i + 1) s
    draws.shuffleFrom i (by omega) (items.swap (i + 1) j h (by omega)) s

/-- The items in a random order. Fewer than two items need no draw. -/
def shuffle (draws : Draws σ α) (items : List β) (s : σ) : List β × σ :=
  let v : Vector β items.toArray.size := ⟨items.toArray, rfl⟩
  if h : 0 < items.toArray.size then
    let (v, s) := draws.shuffleFrom (items.toArray.size - 1) (by omega) v s
    (v.toList, s)
  else (items, s)

end Draws

end OutlierScoring
