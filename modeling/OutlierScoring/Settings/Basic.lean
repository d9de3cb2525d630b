import OutlierScoring.Forest.Basic
import OutlierScoring.Scaler

/-!
# Settings

What a host can choose, in four sections. Every setting has a default, and `Settings.validate` names
the first one that an engine cannot run with.
-/

namespace OutlierScoring

/-- How forests are grown. -/
structure ModelSettings where
  /-- The number of trees. -/
  estimators : Nat := 100
  /-- Trees are grown over this many rows at most. -/
  sampleLimit : Nat := 256
  randomSeed : Nat := 42
  /-- How many trees may be grown at the same time; as many as there are processors where absent. -/
  workers : Option Nat := none
deriving DecidableEq, Repr, Inhabited

/-- What models are trained on. -/
structure TrainingSettings (α : Type) where
  /-- The fraction of outliers that is expected where the caller does not say. -/
  contamination : α
  /-- A series with fewer points is replaced by the fallback data set. -/
  minTrainingSamples : Nat := 10
  /-- The path of the fallback data set. -/
  fallbackDataset : String := "data/fallback.csv"
  /-- What to do with a column that does not vary. -/
  zeroVariance : ZeroVariance := .unitScale
deriving DecidableEq, Repr

/-- Where the trained state is kept. -/
structure StorageSettings where
  /-- Store the trained state after every training. -/
  persist : Bool := true
  modelPath : String := "models/anomaly_model.json"
  scalerPath : String := "models/scaler.json"
deriving DecidableEq, Repr, Inhabited

/-- What is written to the log. -/
structure LoggingSettings where
  level : String := "info"
deriving DecidableEq, Repr, Inhabited

/-- All settings. -/
structure Settings (α : Type) where
  model : ModelSettings
  training : TrainingSettings α
  storage : StorageSettings
  logging : LoggingSettings
deriving DecidableEq, Repr

variable {α : Type} [Scalar α]

/-- The fraction of outliers that is expected by default. -/
def defaultContamination : α := 0.1

/-- The training settings that nobody has changed. -/
def TrainingSettings.default : TrainingSettings α := { contamination := defaultContamination }

namespace Settings

/-- The settings that nobody has changed. -/
def default : Settings α := ⟨{}, .default, {}, {}⟩

/-- Fails on the first setting that an engine cannot run with. -/
def validate (s : Settings α) : Except (SettingsFault α) Unit := do
  if s.model.estimators = 0 then throw (.notPositive .estimators)
  if s.model.sampleLimit = 0 then throw (.notPositive .sampleLimit)
  if s.model.workers = some 0 then throw (.notPositive .workers)
  if ¬IsContamination s.training.contamination then
    throw (.contaminationRange s.training.contamination)
  if s.training.minTrainingSamples = 0 then throw (.notPositive .minTrainingSamples)

end Settings

/-- The parameters of a forest by the settings, for the fraction of outliers that is expected by
default. -/
def ForestParams.ofSettings (s : ModelSettings) : ForestParams α where
  estimators := s.estimators
  sampleLimit := s.sampleLimit
  contamination := defaultContamination
  randomSeed := s.randomSeed
  workers := s.workers

end OutlierScoring
