import OutlierScoring.Files.Tree
import OutlierScoring.Settings.Text
import OutlierScoring.Text.Blank

/-!
# Settings from the environment

Variables of the environment override settings, in a fixed order. The value of a number or a truth
value is read without the blanks around it; where that fails, the overrides that come before it in
the order have been made and those after it have not. Settings from a file are read, overridden and
validated, in this order.
-/

namespace OutlierScoring

/-- What is known about the variables of the environment. -/
abbrev Environment := String → Option String

/-- A variable, and what its value changes. -/
structure Override (α : Type) where
  variableName : String
  apply : (value : String) → Settings α → Except (SettingsFault α) (Settings α)

namespace Override

variable {α β : Type}

/-- An override by the value as it is. -/
def verbatim (name : String) (change : String → Settings α → Settings α) : Override α where
  variableName := name
  apply value s := .ok (change value s)

/-- An override by what the value says. -/
def parsed (source : ParsedVariable) (read : String → Option β)
    (change : β → Settings α → Settings α) : Override α where
  variableName := source.name
  apply value s :=
    match read (Text.trim value) with
    | some b => .ok (change b s)
    | none => .error (.badVariable source value)

/-- A truth value. -/
def readBool? : String → Option Bool
  | "true" => some true
  | "false" => some false
  | _ => none

/-- All overrides in their order. -/
def all [Numeral α] : List (Override α) :=
  [parsed .contamination Numeral.read? fun contamination s ↦
      { s with training := { s.training with contamination } },
    parsed .randomSeed readBounded? fun randomSeed s ↦
      { s with model := { s.model with randomSeed } },
    verbatim "ANOMALY_FALLBACK_DATASET" fun fallbackDataset s ↦
      { s with training := { s.training with fallbackDataset } },
    parsed .persist readBool? fun persist s ↦ { s with storage := { s.storage with persist } },
    verbatim "ANOMALY_MODEL_PATH" fun modelPath s ↦
      { s with storage := { s.storage with modelPath } },
    verbatim "ANOMALY_SCALER_PATH" fun scalerPath s ↦
      { s with storage := { s.storage with scalerPath } },
    verbatim "ANOMALY_LOG_LEVEL" fun level s ↦ { s with logging := { level } }]

end Override

namespace Settings

variable {α : Type}

/-- Makes overrides one after the other, up to the first one whose value cannot be read. -/
def overrideBy (env : Environment) :
    List (Override α) → Settings α → Except (SettingsFault α) Unit × Settings α
  | [], s => (.ok (), s)
  | o :: rest, s =>
    match env o.variableName with
    | none => overrideBy env rest s
    | some value =>
      match o.apply value s with
      | .ok s => overrideBy env rest s
      | .error fault => (.error fault, s)

/-- Makes all overrides that the environment asks for. -/
def override [Numeral α] (env : Environment) (s : Settings α) :
    Except (SettingsFault α) Unit × Settings α :=
  overrideBy env Override.all s

/-- The settings with all overrides, if all of them can be made. -/
def overridden [Numeral α] (env : Environment) (s : Settings α) :
    Except (SettingsFault α) (Settings α) :=
  match s.override env with
  | (.ok (), s) => .ok s
  | (.error fault, _) => .error fault

/-- The settings in the file at a path, under an environment. -/
def load [Scalar α] [Numeral α] (tree : Files.Tree) (env : Environment) (path : String) :
    Except (SettingsFault α) (Settings α) :=
  match tree.readText (Files.Path.ofText path) with
  | .error fault => .error (.unreadable path fault)
  | .ok text => do
    let s ← ofText text
    let s ← s.overridden env
    s.validate
    return s

end Settings

end OutlierScoring
