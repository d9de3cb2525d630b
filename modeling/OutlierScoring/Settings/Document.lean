import OutlierScoring.Json.Form
import OutlierScoring.Settings.Basic
import OutlierScoring.Toml.Basic

/-!
# Settings in documents

Settings are read from JSON and from TOML documents by the same rules, which are stated over what
both kinds of document have in common (`DocumentView`): a section is a record of fields, fields that
are not there have their default values, and fields that are not known are skipped. A section may
also be written as the list of its fields in their order, which may stop early.
-/

namespace OutlierScoring

/-- What is read from a document of type `δ`. -/
structure DocumentView (α δ : Type) where
  /-- The fields of the given names, present or not. -/
  fields? : List String → δ → Option (List (Option δ))
  nat? : δ → Option Nat
  bool? : δ → Option Bool
  text? : δ → Option String
  scalar? : δ → Option α
  /-- The value itself, unless it stands for the absence of one. -/
  present? : δ → Option δ
  /-- The name of one of several choices. -/
  choice? : δ → Option String

namespace DocumentView

variable {α δ β : Type}

/-- Reads a field, which has a default. -/
def field (read : δ → Option β) (default : β) : Option δ → Option β
  | none => some default
  | some d => read d

variable (view : DocumentView α δ)

/-- A natural number that may be absent. -/
def optionalNat? (d : δ) : Option (Option Nat) :=
  match view.present? d with
  | none => some none
  | some d => (view.nat? d).map some

/-- The policy for columns that do not vary. -/
def zeroVariance? (d : δ) : Option ZeroVariance := (view.choice? d).bind ZeroVariance.ofName?

/-- The section on models. -/
def model? (d : δ) : Option ModelSettings := do
  let default : ModelSettings := {}
  match ← view.fields? ["n_estimators", "max_samples", "random_seed", "n_jobs"] d with
  | [estimators, sampleLimit, randomSeed, workers] =>
    let estimators ← field view.nat? default.estimators estimators
    let sampleLimit ← field view.nat? default.sampleLimit sampleLimit
    let randomSeed ← field view.nat? default.randomSeed randomSeed
    let workers ← field view.optionalNat? default.workers workers
    return { estimators, sampleLimit, randomSeed, workers }
  | _ => none

/-- The section on training. -/
def training? [Scalar α] (d : δ) : Option (TrainingSettings α) := do
  let default : TrainingSettings α := .default
  let names :=
    ["default_contamination", "min_training_samples", "fallback_dataset", "zero_variance"]
  match ← view.fields? names d with
  | [contamination, minTrainingSamples, fallbackDataset, zeroVariance] =>
    let contamination ← field view.scalar? default.contamination contamination
    let minTrainingSamples ← field view.nat? default.minTrainingSamples minTrainingSamples
    let fallbackDataset ← field view.text? default.fallbackDataset fallbackDataset
    let zeroVariance ← field view.zeroVariance? default.zeroVariance zeroVariance
    return { contamination, minTrainingSamples, fallbackDataset, zeroVariance }
  | _ => none

/-- The section on storage. -/
def storage? (d : δ) : Option StorageSettings := do
  let default : StorageSettings := {}
  match ← view.fields? ["persist", "model_path", "scaler_path"] d with
  | [persist, modelPath, scalerPath] =>
    let persist ← field view.bool? default.persist persist
    let modelPath ← field view.text? default.modelPath modelPath
    let scalerPath ← field view.text? default.scalerPath scalerPath
    return { persist, modelPath, scalerPath }
  | _ => none

/-- The section on logging. -/
def logging? (d : δ) : Option LoggingSettings := do
  let default : LoggingSettings := {}
  match ← view.fields? ["level"] d with
  | [level] => return { level := ← field view.text? default.level level }
  | _ => none

/-- All settings. -/
def settings? [Scalar α] (d : δ) : Option (Settings α) := do
  let default : Settings α := .default
  match ← view.fields? ["model", "training", "storage", "logging"] d with
  | [model, training, storage, logging] =>
    let model ← field view.model? default.model model
    let training ← field view.training? default.training training
    let storage ← field view.storage? default.storage storage
    let logging ← field view.logging? default.logging logging
    return { model, training, storage, logging }
  | _ => none

end DocumentView

/-! ### JSON -/

namespace Json

/-- The fields of a record, or the first ones of them in a list. -/
def fewerFields? (names : List String) : Nat × Json → Option (List (Option (Nat × Json)))
  | (depth + 1, .record members) =>
    names.mapM fun name ↦ (member? members name).map (·.map (depth, ·))
  | (depth + 1, .list items) =>
    if items.length ≤ names.length then
      some ((List.range names.length).map fun i ↦ items[i]?.map (depth, ·))
    else none
  | _ => none

/-- The name of a choice: a string, or the only member of a record that says no more about it. -/
def choice? : Json → Option String
  | .text name => some name
  | .record [(name, .null)] => some name
  | _ => none

/-- JSON documents, each with the number of levels that a reader may still go down. -/
def view {α : Type} [Scalar α] [Numeral α] : DocumentView α (Nat × Json) where
  fields? := fewerFields?
  nat? d := Json.nat? d.2
  bool? d := Json.bool? d.2
  text? d := string? d.2
  scalar? d := Json.scalar? d.2
  present? d := match d.2 with
    | .null => none
    | _ => some d
  choice? d := choice? d.2

end Json

/-! ### TOML -/

namespace Toml

/-- The fields of a table, or the first ones of them in an array. A date has no fields. -/
def fields? (names : List String) : Toml → Option (List (Option Toml))
  | .table _ entries => some (names.map fun name ↦ entries.lookup name)
  | .list items => some ((List.range names.length).map (items[·]?))
  | .tables items => some ((List.range names.length).map (items[·]?))
  | .moment => some (names.map fun _ ↦ none)
  | _ => none

/-- A natural number. -/
def nat? : Toml → Option Nat
  | .integer n => if 0 ≤ n then some n.toNat else none
  | _ => none

/-- A number, which need not be finite. -/
def scalar? {α : Type} [Numeral α] : Toml → Option α
  | .integer n => some (Numeral.ofDecimal ⟨n < 0, n.natAbs, 0⟩)
  | .real x => some (Numeral.ofView x)
  | _ => none

/-- A table or an array without any entries. -/
def isEmpty : Toml → Bool
  | .table _ entries => entries.isEmpty
  | .list items => items.isEmpty
  | .tables items => items.isEmpty
  | _ => false

/-- The name of a choice: a string, or the only key of a table that says no more about it. -/
def choice? : Toml → Option String
  | .text name => some name
  | .table _ [(name, value)] => if value.isEmpty then some name else none
  | _ => none

/-- TOML documents. -/
def view {α : Type} [Numeral α] : DocumentView α Toml where
  fields? := fields?
  nat? := Toml.nat?
  bool? := fun
    | .bool b => some b
    | _ => none
  text? := fun
    | .text s => some s
    | _ => none
  scalar? := Toml.scalar?
  present? := some
  choice? := choice?

end Toml

end OutlierScoring
