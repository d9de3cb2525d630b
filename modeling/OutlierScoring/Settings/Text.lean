import OutlierScoring.Settings.Document
import OutlierScoring.Toml.Parser

/-!
# Settings as text

The text form of settings is a TOML document. `Settings.ofText?` reads one, and `Settings.toText?`
writes one with a section for each part of the settings. The format has integers of 64 bits with a
sign, so that settings with a larger number have no text.
-/

namespace OutlierScoring

namespace Toml

/-- The text of a value that stands on one line, as far as settings need it. -/
def writeScalar : Toml → String
  | .text s => writeString s
  | .integer n => toString n
  | .real x => x.settings
  | .bool b => if b then "true" else "false"
  | _ => ""

/-- A key without quotes, and its value, on a line. -/
def writeEntry (entry : String × Toml) : String :=
  entry.1 ++ " = " ++ writeScalar entry.2 ++ "\n"

/-- A header and the lines under it. -/
def writeSection (part : String × Entries) : String :=
  "[" ++ part.1 ++ "]\n" ++ String.join (part.2.map writeEntry)

/-- Sections with empty lines between them. -/
def writeSections (parts : List (String × Entries)) : String :=
  String.intercalate "\n" (parts.map writeSection)

end Toml

variable {α : Type} [Numeral α]

namespace Settings

/-- The sections of the text of settings. A number that is absent has no line. -/
def sections (s : Settings α) : List (String × Toml.Entries) :=
  [("model",
      [("n_estimators", .integer s.model.estimators), ("max_samples", .integer s.model.sampleLimit),
        ("random_seed", .integer s.model.randomSeed)] ++
        s.model.workers.toList.map fun n ↦ ("n_jobs", .integer n)),
    ("training",
      [("default_contamination", .real (Numeral.view s.training.contamination)),
        ("min_training_samples", .integer s.training.minTrainingSamples),
        ("fallback_dataset", .text s.training.fallbackDataset),
        ("zero_variance", .text s.training.zeroVariance.name)]),
    ("storage",
      [("persist", .bool s.storage.persist), ("model_path", .text s.storage.modelPath),
        ("scaler_path", .text s.storage.scalerPath)]),
    ("logging", [("level", .text s.logging.level)])]

/-- The whole numbers among the settings. -/
def wholeNumbers (s : Settings α) : List Nat :=
  [s.model.estimators, s.model.sampleLimit, s.model.randomSeed] ++ s.model.workers.toList ++
    [s.training.minTrainingSamples]

/-- The text of settings, unless one of their numbers is too large for it. -/
def toText? (s : Settings α) : Option String :=
  if s.wholeNumbers.all (Toml.isBounded ·) then some (Toml.writeSections s.sections) else none

variable [Scalar α]

/-- The settings that a text describes. -/
def ofText? (text : String) : Option (Settings α) :=
  (Toml.parse? text).bind fun entries ↦ Toml.view.settings? (.table .header entries)

/-- The text of settings, or the fault that there is none. -/
def toText (s : Settings α) : Except (SettingsFault α) String :=
  match s.toText? with
  | some text => .ok text
  | none => .error .unwritable

/-- The settings that a text describes, or the fault that it describes none. -/
def ofText (text : String) : Except (SettingsFault α) (Settings α) :=
  match ofText? text with
  | some settings => .ok settings
  | none => .error .malformed

end Settings

instance [Scalar α] : Json.Form (Settings α) where
  toJson s := .record
    [("model", .record
        [("n_estimators", .nat s.model.estimators), ("max_samples", .nat s.model.sampleLimit),
          ("random_seed", .nat s.model.randomSeed),
          ("n_jobs", Json.optional .nat s.model.workers)]),
      ("training", .record
        [("default_contamination", .scalar s.training.contamination),
          ("min_training_samples", .nat s.training.minTrainingSamples),
          ("fallback_dataset", .text s.training.fallbackDataset),
          ("zero_variance", .text s.training.zeroVariance.name)]),
      ("storage", .record
        [("persist", .bool s.storage.persist), ("model_path", .text s.storage.modelPath),
          ("scaler_path", .text s.storage.scalerPath)]),
      ("logging", .record [("level", .text s.logging.level)])]
  ofJson? depth j := Json.view.settings? (depth, j)

end OutlierScoring
