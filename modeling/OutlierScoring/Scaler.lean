import OutlierScoring.Matrix.Features

/-!
# Standardization

A scaler learns the mean and the deviation of every column and maps `x` to `(x - mean) / scale`.
Columns that do not vary have no deviation to divide by; the policy of the scaler says whether they
are kept under the scale `1` or refused.

Statistics that were stored and read back need not fit together. `Scaler.transform` checks the
number of means against the columns; the scales are then combined with the columns entry by entry,
where a single scale or a single column is repeated as often as needed, and any other difference in
number is a breach.
-/

namespace OutlierScoring

/-- What to do with a column that does not vary. -/
inductive ZeroVariance where
  /-- Keep it, under the scale `1`. -/
  | unitScale
  /-- Refuse the matrix. -/
  | reject
deriving DecidableEq, Repr, Inhabited

/-- The name of the policy in settings. -/
def ZeroVariance.name : ZeroVariance → String
  | unitScale => "unit-scale"
  | reject => "reject"

/-- The policy of a name in settings. -/
def ZeroVariance.ofName? (name : String) : Option ZeroVariance :=
  [unitScale, reject].find? (·.name == name)

/-- The means and the scales of the columns of a matrix. -/
structure Statistics (α : Type) where
  mean : Array α
  /-- The deviations, or `1` for a column that does not vary. -/
  scale : Array α
deriving DecidableEq, Repr

variable {α : Type} [Scalar α]

/-! ### Means and deviations -/

/-- Adds up a list, the numbers of each full block of eight going to eight sums. The sums are put
together in pairs at the end, and the numbers after the last full block follow. -/
def sumBlocks (p₀ p₁ p₂ p₃ p₄ p₅ p₆ p₇ : α) : List α → α
  | x₀ :: x₁ :: x₂ :: x₃ :: x₄ :: x₅ :: x₆ :: x₇ :: rest =>
    sumBlocks (p₀ + x₀) (p₁ + x₁) (p₂ + x₂) (p₃ + x₃) (p₄ + x₄) (p₅ + x₅) (p₆ + x₆) (p₇ + x₇) rest
  | rest => rest.foldl (· + ·) (0 + (p₀ + p₄) + (p₁ + p₅) + (p₂ + p₆) + (p₃ + p₇))

/-- The mean of a column. Where the column is the whole matrix its cells are next to each other, and
are added up in blocks. -/
def columnMean (m : Matrix α) (j : Fin m.width) : α :=
  let column := m.column j
  let total := if m.width = 1 then sumBlocks 0 0 0 0 0 0 0 0 column else Scalar.sum column
  total / (column.length : α)

/-- The mean of the numbers seen so far, and the sum of the squares of their distances from it. -/
structure Spread (α : Type) where
  count : Nat
  mean : α
  squares : α

namespace Spread

/-- No numbers at all. -/
def empty : Spread α := ⟨0, 0, 0⟩

/-- One more number. -/
def push (s : Spread α) (x : α) : Spread α :=
  let count := s.count + 1
  let distance := x - s.mean
  let mean := s.mean + distance / (count : α)
  ⟨count, mean, Scalar.mulAdd (x - mean) distance s.squares⟩

/-- The spread of a list of numbers. -/
def of (xs : List α) : Spread α := xs.foldl push empty

end Spread

/-- The population standard deviation of a list of numbers, in one pass. -/
def deviation (xs : List α) : α := Scalar.sqrt ((Spread.of xs).squares / (xs.length : α))

/-! ### Scalers -/

/-- A policy for columns that do not vary, and the statistics learned so far. -/
structure Scaler (α : Type) where
  policy : ZeroVariance
  statistics : Option (Statistics α)
deriving DecidableEq, Repr

namespace Scaler

/-- A scaler that has learned nothing yet. -/
def new (policy : ZeroVariance) : Scaler α := ⟨policy, none⟩

/-- A scaler with statistics from elsewhere. -/
def ofStatistics (statistics : Statistics α) : Scaler α := ⟨.unitScale, some statistics⟩

/-- The name of a column in a message; columns without a name are numbered. -/
def columnName (names : List String) (j : Nat) : String := names[j]?.getD s!"feature_{j}"

/-- The scale of a column. -/
def columnScale (policy : ZeroVariance) (m : Matrix α) (names : List String) (j : Fin m.width) :
    Outcome α α :=
  let deviation := deviation (m.column j)
  if deviation < Scalar.epsilon then
    match policy with
    | .unitScale => .ok 1
    | .reject => .error (.degenerateFeature j (columnName names j))
  else .ok deviation

/-- The statistics of a matrix that has rows. -/
def learn (policy : ZeroVariance) (m : Matrix α) (names : List String) :
    Outcome α (Statistics α) :=
  if m.height = 0 then .error .emptySeries
  else do
    let scale ← (List.finRange m.width).mapM (columnScale policy m names)
    return ⟨(Vector.ofFn (columnMean m)).toArray, scale.toArray⟩

/-- The width that two rows can be repeated to, if there is one: a row of one number fits any
width. -/
def commonWidth? (a b : Nat) : Option { w : Nat // (a = w ∨ a = 1) ∧ (b = w ∨ b = 1) } :=
  if h : a = b then some ⟨a, .inl rfl, .inl h.symm⟩
  else if h : a = 1 then some ⟨b, .inr h, .inl rfl⟩
  else if h : b = 1 then some ⟨a, .inl rfl, .inr h⟩
  else none

/-- A row, or its only number repeated. -/
def stretch {n : Nat} (row : Vector α n) (w : Nat) (h : n = w ∨ n = 1) : Vector α w :=
  Vector.ofFn fun j ↦ if hn : n = 1 then row[0] else row.get ⟨j.val, by omega⟩

/-- The matrix with every cell `x` replaced by `(x - mean) / scale`. -/
def standardize (m : Matrix α) (mean : Vector α m.width) (scale : Array α) :
    Outcome α (Matrix α) :=
  match commonWidth? m.width scale.size with
  | none => .error (.breach .unequalShapes)
  | some ⟨width, hm, hs⟩ =>
    let scale := stretch scale.toVector width hs
    .ok ⟨width, m.rows.map fun row ↦ (stretch (row - mean) width hm).zipWith (· / ·) scale⟩

/-- The standardized matrix, by the statistics learned before. -/
def transform (s : Scaler α) (m : Matrix α) : Outcome α (Matrix α) :=
  match s.statistics with
  | none => .error .modelNotTrained
  | some statistics =>
    if h : statistics.mean.size = m.width then standardize m ⟨statistics.mean, h⟩ statistics.scale
    else .error (.featureCountMismatch statistics.mean.size m.width)

/-- Learns from a matrix and standardizes it. The names of the columns, of which there may be too
few, are for messages only. A scaler that cannot learn from the matrix keeps what it knew. -/
def fitTransform (s : Scaler α) (m : Matrix α) (names : List String) :
    Outcome α (Matrix α) × Scaler α :=
  match learn s.policy m names with
  | .error failure => (.error failure, s)
  | .ok statistics =>
    let s := { s with statistics := some statistics }
    (s.transform m, s)

end Scaler

instance [Numeral α] : Json.Form (Statistics α) where
  toJson s := .record
    [("mean", Json.Shaped.toJson ⟨[s.mean.size], s.mean.toList⟩),
      ("scale", Json.Shaped.toJson ⟨[s.scale.size], s.scale.toList⟩)]
  ofJson? depth j := do
    let (depth, fields) ← Json.fields? ["mean", "scale"] depth j
    match fields with
    | [some mean, some scale] =>
      let mean ← Json.Shaped.ofJson? 1 depth mean
      let scale ← Json.Shaped.ofJson? 1 depth scale
      return ⟨mean.cells.toArray, scale.cells.toArray⟩
    | _ => none

end OutlierScoring
