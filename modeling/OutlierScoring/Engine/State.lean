import OutlierScoring.Engine.Prediction
import OutlierScoring.Scaler
import OutlierScoring.Time.Instant

/-!
# Trained states

Everything that a prediction needs: a scaler, a model of the standardized data, and what the columns
are called. A state is never changed, so a prediction is a function of the state and the series.
-/

namespace OutlierScoring

/-- A scaler and a model that belong together. -/
structure TrainedState (α M : Type) where
  scaler : Scaler α
  model : M
  featureNames : List String
  trainedAt : Time.Instant
deriving DecidableEq, Repr

namespace TrainedState

variable {α M : Type} [Scalar α] [OutlierModel M α]

/-- Points with a higher score are anomalous. -/
def threshold (state : TrainedState α M) : α := -OutlierModel.offset state.model

/-- Scores and labels for the rows of a matrix. -/
def score (state : TrainedState α M) (m : Matrix α) : Outcome α (Prediction α) := do
  let scaled ← state.scaler.transform m
  let scores ← OutlierModel.scores state.model scaled
  let verdicts ← OutlierModel.verdicts state.model scaled
  return ⟨scores.map (-·), verdicts.map Verdict.label⟩

/-- Scores and labels for the points of a series. -/
def predict (state : TrainedState α M) (series : List α) : Outcome α (Prediction α) := do
  if series.isEmpty then throw .emptySeries
  let m := Matrix.ofSeries series
  m.ensureFinite
  state.score m

/-- A failure with the sequence that it comes from, unless the operation broke off. -/
def inSequence (index : Nat) : Failure α → Failure α
  | .breach breach => .breach breach
  | failure => .batchItem index failure

/-- The prediction for one sequence of a batch. -/
def predictItem (state : TrainedState α M) (sequence : List α × Nat) :
    Outcome α (SequencePrediction α) :=
  match state.predict sequence.1 with
  | .ok prediction => .ok ⟨sequence.2, prediction⟩
  | .error failure => .error (inSequence sequence.2 failure)

/-- Predictions for each of some sequences; the first one that fails fails them all. -/
def predictBatch (state : TrainedState α M) (sequences : List (List α)) :
    Outcome α (List (SequencePrediction α)) :=
  sequences.zipIdx.mapM state.predictItem

end TrainedState

end OutlierScoring
