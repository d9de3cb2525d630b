import OutlierScoring.Matrix.Basic

/-!
# Outlier models

What the engine needs of the way in which outliers are found. A `Detector` fits a model to a matrix,
given the fraction of rows that are expected to be outliers; an `OutlierModel` gives every row a
score, the higher the more normal, and has an offset below which a row is an outlier. Verdicts are
derived from the scores here, once for all models.
-/

namespace OutlierScoring

/-- What a model says about a row. -/
inductive Verdict where
  | normal
  | outlier
deriving DecidableEq, Repr

namespace Verdict

/-- The name of a verdict. -/
def name : Verdict → String
  | normal => "Normal"
  | outlier => "Outlier"

/-- A verdict as a sign: outliers are negative. -/
def sign : Verdict → Int
  | normal => 1
  | outlier => -1

/-- A verdict as a label: outliers are marked by `1`. -/
def label : Verdict → Nat
  | normal => 0
  | outlier => 1

end Verdict

/-- Fitted models that score rows. -/
class OutlierModel (M : Type) (α : outParam Type) where
  /-- A score for every row; the higher, the more normal. -/
  scores : M → Matrix α → Outcome α (List α)
  /-- Rows with a lower score are outliers. -/
  offset : M → α
  /-- The fraction of outliers that the model was fitted for. -/
  contamination : M → α
  /-- The number of columns that the model was fitted to. -/
  features : M → Nat

/-- A way of fitting models. -/
structure Detector (α M : Type) where
  algorithm : String
  estimators : Nat
  randomSeed : Nat
  /-- The model for a standardized matrix and an expected fraction of outliers. -/
  fit : Matrix α → (contamination : α) → Outcome α M

namespace OutlierModel

variable {M α : Type} [Scalar α] [OutlierModel M α]

/-- How far every row is above the offset. -/
def decisions (model : M) (m : Matrix α) : Outcome α (List α) := do
  let scores ← scores model m
  return scores.map (· - offset model)

/-- A row is an outlier if its decision is negative. -/
def verdictOf (decision : α) : Verdict := if decision < 0 then .outlier else .normal

/-- The verdict on every row. -/
def verdicts (model : M) (m : Matrix α) : Outcome α (List Verdict) := do
  let decisions ← decisions model m
  return decisions.map verdictOf

end OutlierModel

section Contamination

variable {α : Type} [Scalar α]

/-- The fractions of outliers that can be asked for. -/
def IsContamination (c : α) : Prop := 0 < c ∧ c ≤ 1 / Scalar.two

instance (c : α) : Decidable (IsContamination c) := inferInstanceAs (Decidable (_ ∧ _))

/-- Fails unless the fraction of outliers can be asked for. -/
def checkContamination (c : α) : Outcome α Unit :=
  if IsContamination c then .ok () else .error (.invalidParameter .contamination c)

end Contamination

end OutlierScoring
