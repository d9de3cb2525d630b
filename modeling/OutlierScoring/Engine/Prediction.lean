import OutlierScoring.Model

/-!
# Predictions

Scores and labels for the points of a series, and what can be read off them. In a prediction scores
are turned around: the higher, the more anomalous. A label is `1` for an anomalous point and `0` for
a normal one.
-/

namespace OutlierScoring

/-- The mean, the greatest and the least of some scores. -/
structure ScoreStats (α : Type) where
  mean : α
  max : α
  min : α
deriving DecidableEq, Repr

/-- The statistics of some scores, if there are any scores. What is not a number has no part in the
extremes. -/
def ScoreStats.of? {α : Type} [Scalar α] (scores : List α) : Option (ScoreStats α) :=
  if scores.isEmpty then none
  else some ⟨Scalar.sum scores / (scores.length : α), Scalar.greatest scores, Scalar.least scores⟩

/-- Scores and labels, point by point. -/
structure Prediction (α : Type) where
  scores : List α
  labels : List Nat
deriving DecidableEq, Repr

namespace Prediction

variable {α : Type}

/-- The number of points. -/
def length (p : Prediction α) : Nat := p.labels.length

/-- The number of anomalous points. -/
def anomalyCount (p : Prediction α) : Nat := p.labels.count 1

/-- Some point is anomalous. -/
def isAnomalous (p : Prediction α) : Bool := p.labels.contains 1

/-- The statistics of the scores. -/
def stats? [Scalar α] (p : Prediction α) : Option (ScoreStats α) := ScoreStats.of? p.scores

theorem isAnomalous_iff (p : Prediction α) : p.isAnomalous = true ↔ 0 < p.anomalyCount := by
  simp [isAnomalous, anomalyCount, List.count_pos_iff]

end Prediction

/-- The prediction for one sequence of a batch. -/
structure SequencePrediction (α : Type) where
  index : Nat
  prediction : Prediction α
deriving DecidableEq, Repr

/-- The name of the sequence of the given index. -/
def SequencePrediction.keyOf (index : Nat) : String := "sequence_" ++ toString index

/-- The name of a sequence in printed results. -/
def SequencePrediction.key {α : Type} (p : SequencePrediction α) : String := keyOf p.index

end OutlierScoring
