import OutlierScoring.Csv.Fault
import OutlierScoring.Number.Numeral
import OutlierScoring.Text.Quoted

/-!
# Failures

Every cause for which the library refuses an operation, with the wording of its message. A failure
is either the caller's (`Failure.isClient`), who can call again with other input, or the
environment's. Of the environment only the files can fail: the machine has the memory and the
threads that it is asked for.
-/

namespace OutlierScoring

/-- The parameters of a forest that are checked. -/
inductive Parameter where
  | contamination
  | estimators
  | workers
  | sampleLimit
deriving DecidableEq, Repr

namespace Parameter

/-- The name of a parameter in messages and settings. -/
def name : Parameter → String
  | contamination => "contamination"
  | estimators => "n_estimators"
  | workers => "n_jobs"
  | sampleLimit => "max_samples"

/-- What is asked of a parameter. -/
def requirement : Parameter → String
  | contamination => "must lie in (0, 0.5]"
  | _ => "must be > 0"

end Parameter

/-- Why a data set yields no training matrix. -/
inductive DatasetFault where
  | notFound
  | noNumericColumns
  | noCompleteRows
  | unreadable (fault : Csv.Fault)
deriving DecidableEq, Repr

/-- The environment variables that override settings after reading a value from them. -/
inductive ParsedVariable where
  | contamination
  | randomSeed
  | persist
deriving DecidableEq, Repr

/-- The name of the variable in the environment. -/
def ParsedVariable.name : ParsedVariable → String
  | contamination => "ANOMALY_CONTAMINATION"
  | randomSeed => "ANOMALY_RANDOM_SEED"
  | persist => "ANOMALY_PERSIST"

/-- The settings that must not be zero. -/
inductive PositiveSetting where
  | estimators
  | sampleLimit
  | workers
  | minTrainingSamples
deriving DecidableEq, Repr

/-- The name of the setting, with the name of its section. -/
def PositiveSetting.name : PositiveSetting → String
  | estimators => "model.n_estimators"
  | sampleLimit => "model.max_samples"
  | workers => "model.n_jobs"
  | minTrainingSamples => "training.min_training_samples"

/-- Why there are no usable settings. -/
inductive SettingsFault (α : Type) where
  | unreadable (path : String) (fault : Files.Fault)
  | malformed
  | unwritable
  | badVariable (source : ParsedVariable) (value : String)
  | notPositive (setting : PositiveSetting)
  | contaminationRange (value : α)
  /-- A fault that a host reports in its own words. -/
  | other (text : String)
deriving DecidableEq, Repr

/-- Why a trained state could not be stored or taken back. -/
inductive PersistenceFault where
  | file (fault : Files.Fault)
  /-- The stored parts were not written together: they differ in their number of features. -/
  | disagreement (model scaler names : Nat)
  /-- A fault that a host reports in its own words. -/
  | other (text : String)
deriving DecidableEq, Repr

/-- An access outside of the data at hand, which no check has caught before. -/
inductive Breach where
  /-- A tree asks for a feature that a row does not have. -/
  | featureOutOfRange
  /-- Numbers are to be combined entry by entry, but there are not equally many of them. -/
  | unequalShapes
  /-- A rank lies outside of the list of scores. -/
  | rankOutOfRange
deriving DecidableEq, Repr

/-- Why an operation was refused. -/
inductive Failure (α : Type) where
  | modelNotTrained
  | invalidParameter (parameter : Parameter) (value : α)
  | dataset (path : String) (fault : DatasetFault)
  | degenerateFeature (column : Nat) (name : String)
  | emptySeries
  | nonFiniteValue (row column : Nat)
  | featureCountMismatch (expected got : Nat)
  /-- The sequence of the given index in a batch is what failed. -/
  | batchItem (index : Nat) (cause : Failure α)
  | persistence (path : String) (fault : PersistenceFault)
  /-- A document is not one, or not one of the kind that is read. -/
  | malformedDocument
  | settings (fault : SettingsFault α)
  /-- A file that is needed could not be read. -/
  | unreadableFile (fault : Files.Fault)
  /-- The operation broke off without an answer. -/
  | breach (breach : Breach)
deriving DecidableEq, Repr

namespace DatasetFault

/-- What a message says about the data set at a path. -/
def message (path : String) : DatasetFault → String
  | notFound => s!"fallback dataset not found at {path}"
  | noNumericColumns => s!"fallback dataset {path} has no numeric columns"
  | noCompleteRows => s!"fallback dataset {path} has no complete numeric rows"
  | unreadable fault => s!"failed to read dataset {path}: " ++ fault.message

end DatasetFault

namespace SettingsFault

variable {α : Type} [Numeral α]

/-- What a message says about settings. -/
def message : SettingsFault α → String
  | unreadable path fault => s!"Failed to read config file {path}: " ++ fault.message
  | malformed => "Failed to parse config"
  | unwritable => "Failed to serialize config"
  | badVariable source value => source.name ++ " has an invalid value: " ++ Text.quoted value
  | notPositive setting => setting.name ++ " must be > 0"
  | contaminationRange value =>
    "training.default_contamination must lie in (0, 0.5], got " ++ (Numeral.view value).message
  | other text => text

end SettingsFault

namespace PersistenceFault

/-- The reason that a message gives. -/
def message : PersistenceFault → String
  | file fault => fault.message
  | disagreement model scaler names =>
    s!"stored blobs disagree: model has {model} features, scaler {scaler}, names {names}"
  | other text => text

end PersistenceFault

namespace Failure

variable {α : Type}

/-- What the message of a failure says. -/
def message [Numeral α] : Failure α → String
  | modelNotTrained => "model not trained; train the model first"
  | invalidParameter parameter value =>
    "invalid parameter \x60" ++ parameter.name ++ "\x60 = " ++ (Numeral.view value).message ++
      ": " ++ parameter.requirement
  | dataset path fault => fault.message path
  | degenerateFeature column name =>
    "feature \x60" ++ name ++ s!"\x60 (column {column}) has zero variance"
  | emptySeries => "input series is empty"
  | nonFiniteValue row column => s!"non-finite value at row {row}, column {column}"
  | featureCountMismatch expected got =>
    s!"feature count mismatch: expected {expected}, got {got}"
  | batchItem index cause => s!"sequence {index} failed: " ++ cause.message
  | persistence path fault => s!"failed to persist {path}: " ++ fault.message
  | malformedDocument => "serialization error"
  | settings fault => "config error: " ++ fault.message
  | unreadableFile fault => "io error: " ++ fault.message
  | breach _ => "internal error"

/-- The failures that are caused by the caller's input and not by the environment. -/
def isClient : Failure α → Bool
  | modelNotTrained => true
  | invalidParameter _ _ => true
  | degenerateFeature _ _ => true
  | emptySeries => true
  | nonFiniteValue _ _ => true
  | featureCountMismatch _ _ => true
  | batchItem _ cause => cause.isClient
  | _ => false

end Failure

/-- The outcome of a computation that may be refused. -/
abbrev Outcome (α β : Type) := Except (Failure α) β

end OutlierScoring
