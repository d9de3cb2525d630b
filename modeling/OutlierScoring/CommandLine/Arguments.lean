import OutlierScoring.Number.Numeral

/-!
# Command line arguments

The arguments are options, the name of a command, and options of that command. Options have a long
name, and most of them a short one. Short names can be put together behind one dash. The value of an
option follows in the next argument, or directly: `--values=1,2`, `-v=1,2` or `-v1,2`.

A value of its own that starts with a dash is taken for an option, unless it is the dash alone or
the option admits negative numbers and the value is one. After `--` nothing is taken for an option,
and as nothing but options is expected there, nothing may follow.
-/

namespace OutlierScoring.CommandLine

/-- The options. -/
inductive OptionName where
  | config
  | debug
  | values
  | contamination
  | file
  | help
  | version
deriving DecidableEq, Repr

/-- What an option asks of its value. -/
structure ValueRule where
  /-- The values that can be read. -/
  accepts : String → Bool
  /-- A value in an argument of its own may be a negative number. -/
  admitsNegative : Bool
  /-- The option may be there several times. -/
  repeatable : Bool

/-- An option, its names, and the rule for its value if it has one. -/
structure OptionRule where
  option : OptionName
  long : String
  short : Option Char
  value : Option ValueRule

/-- What ends the reading of arguments early. -/
inductive Stop where
  /-- The arguments make no sense. -/
  | usage
  | version
  | help
deriving DecidableEq, Repr

/-- The options that were read, each with its value, the last one first. -/
abbrev Occurrences := List (OptionName × Option String)

/-- Digits with at most one point after the first and at most one exponent mark, which does not come
first or last. A point does not follow the exponent mark. -/
def looksNumeric (pointSeen markSeen first : Bool) : List Char → Bool
  | [] => true
  | ['e'] => false
  | ['E'] => false
  | c :: rest =>
    if c.isDigit then looksNumeric pointSeen markSeen false rest
    else if c = '.' ∧ !pointSeen ∧ !markSeen ∧ !first then looksNumeric true markSeen false rest
    else if (c = 'e' ∨ c = 'E') ∧ !markSeen ∧ !first then looksNumeric pointSeen true false rest
    else false

/-- The argument can be the value of an option before it. -/
def isSeparateValue (rule : ValueRule) (argument : String) : Bool :=
  match argument.toList with
  | '-' :: [] => true
  | '-' :: rest => rule.admitsNegative && looksNumeric false false true rest
  | _ => true

/-- One more occurrence of an option without a value. -/
def addFlag (rule : OptionRule) (read : Occurrences) : Except Stop Occurrences :=
  match rule.option with
  | .help => .error .help
  | .version => .error .version
  | option =>
    if read.any (·.1 == option) then .error .usage else .ok ((option, none) :: read)

/-- One more occurrence of an option with a value. -/
def addValue (rule : OptionRule) (valueRule : ValueRule) (value : String) (read : Occurrences) :
    Except Stop Occurrences :=
  if !valueRule.accepts value ∨ (!valueRule.repeatable ∧ read.any (·.1 == rule.option)) then
    .error .usage
  else .ok ((rule.option, some value) :: read)

/-- What an argument leaves open: nothing, or the value of an option. -/
inductive Pending where
  | nothing
  | valueOf (rule : OptionRule) (valueRule : ValueRule)

/-- Reads short names that stand behind one dash. What follows the name of an option with a value is
its value. -/
def readShort (rules : List OptionRule) (read : Occurrences) :
    List Char → Except Stop (Occurrences × Pending)
  | [] => .ok (read, .nothing)
  | c :: rest =>
    match rules.find? (·.short == some c) with
    | none => .error .usage
    | some rule =>
      match rule.value with
      | none => do
        let read ← addFlag rule read
        readShort rules read rest
      | some valueRule =>
        match rest with
        | [] => .ok (read, .valueOf rule valueRule)
        | '=' :: value => do
          return (← addValue rule valueRule (String.ofList value) read, .nothing)
        | value => do return (← addValue rule valueRule (String.ofList value) read, .nothing)

/-- Reads a long name, perhaps with a value. -/
def readLong (rules : List OptionRule) (read : Occurrences) (argument : List Char) :
    Except Stop (Occurrences × Pending) :=
  let name := argument.takeWhile (· ≠ '=')
  match rules.find? (·.long == String.ofList name) with
  | none => .error .usage
  | some rule =>
    match rule.value, argument.drop name.length with
    | none, [] => do return (← addFlag rule read, .nothing)
    | none, _ => .error .usage
    | some valueRule, [] => .ok (read, .valueOf rule valueRule)
    | some valueRule, _ :: value => do
      return (← addValue rule valueRule (String.ofList value) read, .nothing)

/-- Reads one argument that starts with a dash. -/
def readOption (rules : List OptionRule) (read : Occurrences) :
    List Char → Except Stop (Occurrences × Pending)
  | '-' :: '-' :: argument => readLong rules read argument
  | '-' :: argument => readShort rules read argument
  | _ => .error .usage

/-- Reads options up to the first argument that is one of the given commands, and gives that and the
arguments after it. -/
def readOptions (rules : List OptionRule) (commands : List String) (read : Occurrences) :
    List String → Except Stop (Occurrences × Option (String × List String))
  | [] => .ok (read, none)
  | argument :: rest =>
    if commands.contains argument then .ok (read, some (argument, rest))
    else if argument = "--" then if rest.isEmpty then .ok (read, none) else .error .usage
    else if argument = "-" then .error .usage
    else
      match readOption rules read argument.toList with
      | .error stop => .error stop
      | .ok (read, .nothing) => readOptions rules commands read rest
      | .ok (read, .valueOf rule valueRule) =>
        match rest with
        | [] => .error .usage
        | value :: rest =>
          if isSeparateValue valueRule value then
            match addValue rule valueRule value read with
            | .error stop => .error stop
            | .ok read => readOptions rules commands read rest
          else .error .usage

/-- The values of an option in their order. -/
def Occurrences.valuesOf (read : Occurrences) (option : OptionName) : List String :=
  (read.filterMap fun (o, value) ↦ if o = option then value else none).reverse

/-! ### The options of the commands -/

variable (α : Type) [Numeral α]

/-- The parts of a list of numbers. -/
def listParts (list : String) : List String := list.splitOn ","

/-- The option for a list of numbers. -/
def valuesRule : OptionRule where
  option := .values
  long := "values"
  short := some 'v'
  value := some
    { accepts := fun list ↦ (listParts list).all fun part ↦ (Numeral.read? part : Option α).isSome
      admitsNegative := true
      repeatable := true }

/-- The option for an expected fraction of outliers. -/
def contaminationRule : OptionRule where
  option := .contamination
  long := "contamination"
  short := none
  value := some
    { accepts := fun text ↦ (Numeral.read? text : Option α).isSome
      admitsNegative := false
      repeatable := false }

/-- An option for a path, which must not be empty. -/
def pathRule (option : OptionName) (long : String) (short : Char) : OptionRule where
  option
  long
  short := some short
  value := some { accepts := (· ≠ ""), admitsNegative := false, repeatable := false }

/-- The options that may stand before or after the name of the command. -/
def globalRules : List OptionRule :=
  [pathRule .config "config" 'c', ⟨.debug, "debug", some 'd', none⟩,
    ⟨.help, "help", some 'h', none⟩]

/-- The options before the name of the command. -/
def outerRules : List OptionRule := ⟨.version, "version", some 'V', none⟩ :: globalRules

/-- The names of the commands. -/
def commandNames : List String := ["train", "predict", "predict-batch", "info", "demo", "help"]

/-- The options after the name of a command. -/
def innerRules (command : String) : List OptionRule :=
  match command with
  | "train" => valuesRule α :: contaminationRule α :: globalRules
  | "predict" => valuesRule α :: globalRules
  | "predict-batch" => pathRule .file "file" 'f' :: globalRules
  | _ => globalRules

variable {α}

/-- A command with what its options say. -/
inductive Command (α : Type) where
  | train (values : Option (List α)) (contamination : Option α)
  | predict (values : List α)
  | predictBatch (file : String)
  | info
  | demo
deriving DecidableEq, Repr

/-- What the arguments ask for. -/
structure Request (α : Type) where
  /-- The path of the settings. -/
  config : Option String
  command : Command α
deriving DecidableEq, Repr

/-- The numbers in the lists of an option. -/
def numbers (lists : List String) : List α := (lists.flatMap listParts).filterMap Numeral.read?

/-- The command of a name with the given options, unless one that it needs is missing. -/
def command? (name : String) (read : Occurrences) : Except Stop (Command α) :=
  let lists := read.valuesOf .values
  match name with
  | "train" =>
    .ok (.train (if lists.isEmpty then none else some (numbers lists))
      ((read.valuesOf .contamination).head?.bind Numeral.read?))
  | "predict" => if lists.isEmpty then .error .usage else .ok (.predict (numbers lists))
  | "predict-batch" =>
    match read.valuesOf .file with
    | file :: _ => .ok (.predictBatch file)
    | [] => .error .usage
  | "info" => .ok .info
  | "demo" => .ok .demo
  | _ => .error .help

/-- What the arguments ask for. The path of the settings may be given before and after the name of
the command; then the later one counts. -/
def Request.ofArguments (arguments : List String) : Except Stop (Request α) := do
  match ← readOptions outerRules commandNames [] arguments with
  | (_, none) => throw .usage
  | (outer, some (name, rest)) =>
    if name = "help" then throw .help
    let (inner, _) ← readOptions (innerRules α name) [] [] rest
    let command ← command? name inner
    let config := (inner.valuesOf .config).head?.or (outer.valuesOf .config).head?
    return { config, command }

end OutlierScoring.CommandLine
