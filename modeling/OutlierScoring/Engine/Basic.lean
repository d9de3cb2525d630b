import OutlierScoring.Dataset
import OutlierScoring.Engine.State
import OutlierScoring.Forest.Form
import OutlierScoring.Random.Sampling
import OutlierScoring.Settings.Basic
import OutlierScoring.Store

/-!
# The scoring engine

An engine trains, keeps the trained state, and predicts with it. What is fixed about an engine, how
it detects outliers, where it finds and stores data, is an `Engine`; what its operations change is a
`Session`: the state that is published for predictions, and the disk. An operation that fails leaves
the published state as it is.
-/

namespace OutlierScoring

/-- Where a training matrix comes from. -/
inductive TrainingSource where
  /-- From the caller. -/
  | provided
  /-- From the fallback data set of the given name. -/
  | fallback (dataset : String)
deriving DecidableEq, Repr

/-- What a training came to. -/
structure TrainingSummary (α : Type) where
  samples : Nat
  featureNames : List String
  contamination : α
  /-- The statistics of the scores of the training rows. -/
  scores : ScoreStats α
  /-- The number of training rows that the model itself takes for outliers. -/
  anomalyCount : Nat
  threshold : α
  source : TrainingSource
  trainedAt : Time.Instant
deriving DecidableEq, Repr

/-- What can be said about an engine, trained or not. -/
structure ModelInfo (α : Type) where
  isTrained : Bool
  algorithm : String
  featureNames : List String
  contamination : Option α
  threshold : Option α
  estimators : Nat
  randomSeed : Nat
  modelPath : Option String
  scalerPath : Option String
  trainedAt : Option Time.Instant
deriving DecidableEq, Repr

/-- What is fixed about an engine. -/
structure Engine (α M : Type) where
  detector : Detector α M
  /-- Replaces training data that are missing or too few. -/
  fallback : Dataset α
  /-- Where trained states are stored, if they are. -/
  store : Option Store
  /-- A series with fewer points is too short to train on. -/
  minTrainingSamples : Nat
  /-- What to do with a column that does not vary. -/
  zeroVariance : ZeroVariance

/-- What the operations of an engine change. -/
structure Session (α M : Type) where
  /-- The state that predictions are made with. -/
  published : Option (TrainedState α M)
  disk : Files.Disk

namespace Session

variable {α M : Type}

/-- Before anything was trained. -/
def start (disk : Files.Disk) : Session α M := ⟨none, disk⟩

/-- A state was published. -/
def isTrained (session : Session α M) : Bool := session.published.isSome

variable [Scalar α] [OutlierModel M α]

/-- Scores and labels for the points of a series. -/
def predict (session : Session α M) (series : List α) : Outcome α (Prediction α) :=
  match session.published with
  | none => .error .modelNotTrained
  | some state => state.predict series

/-- Predictions for each of some sequences. -/
def predictBatch (session : Session α M) (sequences : List (List α)) :
    Outcome α (List (SequencePrediction α)) :=
  match session.published with
  | none => .error .modelNotTrained
  | some state => state.predictBatch sequences

end Session

namespace Engine

variable {α M : Type} [Scalar α]

/-- The engine that settings describe, with the given detector and data set. -/
def ofParts (detector : Detector α M) (fallback : Dataset α) (s : Settings α) : Engine α M where
  detector
  fallback
  store := if s.storage.persist then some ⟨s.storage.modelPath, s.storage.scalerPath⟩ else none
  minTrainingSamples := s.training.minTrainingSamples
  zeroVariance := s.training.zeroVariance

/-- The engine that settings describe, which grows forests and falls back on a table file. -/
def new [Numeral α] (s : Settings α) : Except (SettingsFault α) (Engine α (Forest α)) := do
  s.validate
  return ofParts ((ForestParams.ofSettings s.model).detector Keystream.chance)
    (.ofFile s.training.fallbackDataset) s

/-! ### Training -/

/-- The matrix to train on, and where it comes from: the given series, if it is long enough. -/
def trainingMatrix (engine : Engine α M) (tree : Files.Tree) (data : Option (List α)) :
    Outcome α (FeatureMatrix α × TrainingSource) :=
  match data.filter (engine.minTrainingSamples ≤ ·.length) with
  | some series => .ok (.ofSeries series, .provided)
  | none => do
    let matrix ← engine.fallback.load tree
    return (matrix, .fallback engine.fallback.name)

variable [OutlierModel M α]

/-- The state for a training matrix. -/
def fit (engine : Engine α M) (now : Time.Instant) (matrix : FeatureMatrix α) (contamination : α) :
    Outcome α (TrainedState α M) := do
  matrix.values.ensureFinite
  let (scaled, scaler) := (Scaler.new engine.zeroVariance).fitTransform matrix.values matrix.names
  let model ← engine.detector.fit (← scaled) contamination
  return { scaler, model, featureNames := matrix.names, trainedAt := now }

/-- What there is to say about a state that was trained on a matrix. -/
def summarize (state : TrainedState α M) (matrix : FeatureMatrix α) (source : TrainingSource) :
    Outcome α (TrainingSummary α) := do
  let training ← state.score matrix.values
  match training.stats? with
  | none => throw .emptySeries
  | some scores =>
    return {
      samples := training.length
      featureNames := state.featureNames
      contamination := OutlierModel.contamination state.model
      scores
      anomalyCount := training.anomalyCount
      threshold := state.threshold
      source
      trainedAt := state.trainedAt }

/-- The state for the given data and its summary, without publishing or storing it. -/
def prepare (engine : Engine α M) (tree : Files.Tree) (now : Time.Instant)
    (data : Option (List α)) (contamination : α) :
    Outcome α (TrainedState α M × TrainingSummary α) := do
  let (matrix, source) ← engine.trainingMatrix tree data
  let state ← engine.fit now matrix contamination
  return (state, ← summarize state matrix source)

variable [Json.Form M] [Numeral α]

/-- Stores a state, if the engine stores states at all. -/
def persist (engine : Engine α M) (state : TrainedState α M) : Store.Step α Unit :=
  match engine.store with
  | none => return
  | some store =>
    match state.scaler.statistics with
    | none => throw .modelNotTrained
    | some statistics =>
      store.save ⟨state.model, state.featureNames, state.trainedAt⟩ statistics

/-- Trains on the given data, or on the fallback data set if they are missing or too few. The new
state is stored first and published only then. -/
def train (engine : Engine α M) (now : Time.Instant) (data : Option (List α)) (contamination : α)
    (session : Session α M) : Outcome α (TrainingSummary α) × Session α M :=
  match engine.prepare session.disk.tree now data contamination with
  | .error failure => (.error failure, session)
  | .ok (state, summary) =>
    match (engine.persist state).run session.disk with
    | (.error failure, disk) => (.error failure, { session with disk })
    | (.ok (), disk) => (.ok summary, ⟨some state, disk⟩)

/-! ### Restoring -/

/-- The state of a blob and statistics, if they have the same number of features. -/
def coherent (store : Store) (blob : Blob M) (statistics : Statistics α) :
    Outcome α (TrainedState α M) :=
  let features := OutlierModel.features blob.model
  let scalerFeatures := statistics.mean.size
  let names := blob.featureNames.length
  if scalerFeatures ≠ features ∨ names ≠ features then
    .error (.persistence store.modelPath (.disagreement features scalerFeatures names))
  else
    .ok {
      scaler := .ofStatistics statistics
      model := blob.model
      featureNames := blob.featureNames
      trainedAt := blob.trainedAt }

/-- The stored state, if there is one. -/
def stored (engine : Engine α M) : Store.Step α (Option (TrainedState α M)) := do
  match engine.store with
  | none => return none
  | some store =>
    match ← store.load with
    | none => return none
    | some (blob, statistics) =>
      let state ← Store.ofOutcome (coherent store blob statistics)
      return some state

/-- Publishes the stored state, if there is one, and says whether there is. -/
def restore (engine : Engine α M) (session : Session α M) : Outcome α Bool × Session α M :=
  match engine.stored.run session.disk with
  | (.error failure, disk) => (.error failure, { session with disk })
  | (.ok none, disk) => (.ok false, { session with disk })
  | (.ok (some state), disk) => (.ok true, ⟨some state, disk⟩)

omit [Json.Form M] [Numeral α] in
/-- What can be said about the engine. -/
def info (engine : Engine α M) (session : Session α M) : ModelInfo α where
  isTrained := session.isTrained
  algorithm := engine.detector.algorithm
  featureNames := (session.published.map (·.featureNames)).getD []
  contamination := session.published.map fun state ↦ OutlierModel.contamination state.model
  threshold := session.published.map (·.threshold)
  estimators := engine.detector.estimators
  randomSeed := engine.detector.randomSeed
  modelPath := engine.store.map (·.modelPath)
  scalerPath := engine.store.map (·.scalerPath)
  trainedAt := session.published.map (·.trainedAt)

end Engine

end OutlierScoring
