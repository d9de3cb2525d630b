import OutlierScoring.Number.Scalar
import OutlierScoring.Random.Draws

/-!
# Data for a demonstration

A series with two groups of points around two means, drawn from a fixed seed, and some series to
make predictions for.
-/

namespace OutlierScoring.Demo

variable {α σ : Type} [Scalar α]

/-- The given number of draws, one after the other. -/
def repeated {β : Type} (draw : σ → β × σ) : Nat → σ → List β × σ
  | 0, s => ([], s)
  | n + 1, s =>
    let (b, s) := draw s
    let (bs, s) := repeated draw n s
    (b :: bs, s)

/-- An approximately normal draw: twelve fractions have a sum of variance one. -/
def normal (draws : Draws σ α) (mean deviation : Nat) (s : σ) : α × σ :=
  let (fractions, s) := repeated draws.fraction 12 s
  let z := Scalar.sum fractions - ((6 : Nat) : α)
  ((mean : α) + (deviation : α) * z, s)

/-- The seed of the training series. -/
def seed : UInt64 := 42

/-- A hundred points around `50`, and ten around `10`. -/
def training (chance : Chance σ α) : List α :=
  let (most, s) := repeated (normal chance.draws 50 5) 100 (chance.start seed)
  let (few, _) := repeated (normal chance.draws 10 2) 10 s
  most ++ few

/-- Whole numbers as a series. -/
def series (ns : List Nat) : List α := ns.map Nat.cast

/-- A series with some points far from the others. -/
def single : List α := series [45, 50, 55, 5, 48, 52, 100, 51]

/-- Sequences with and without such points. -/
def batch : List (List α) :=
  [series [48, 50, 52, 49, 51], series [50, 5, 50, 95, 50], series [47, 53, 50, 12]]

end OutlierScoring.Demo
