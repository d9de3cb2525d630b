import OutlierScoring.CommandLine.Arguments
import OutlierScoring.CommandLine.Demo
import OutlierScoring.Engine.Report
import OutlierScoring.Settings.Environment

/-!
# Running a command

A run reads the settings, makes an engine, takes back the stored state if there is one, and does
what the command asks for. Results are printed as documents. A stored state that cannot be taken
back is no reason to stop, because training is what replaces it.
-/

namespace OutlierScoring.CommandLine

/-- Why a run fails. -/
inductive Problem (α : Type) where
  /-- The library refuses an operation. -/
  | refused (failure : Failure α)
  /-- The settings at a path cannot be used. -/
  | loadingSettings (path : String) (fault : SettingsFault α)
  /-- The file at a path cannot be read. -/
  | readingFile (path : String) (fault : Files.Fault)
  /-- The file at a path does not hold sequences of numbers. -/
  | parsingFile (path : String)
deriving DecidableEq, Repr

/-- What a message says about a problem. -/
def Problem.message {α : Type} [Numeral α] : Problem α → String
  | refused failure => failure.message
  | loadingSettings path _ => "loading config " ++ path
  | readingFile path _ => "reading " ++ path
  | parsingFile path => "parsing " ++ path

/-- What a message says about the cause of a problem, if it has one. -/
def Problem.cause {α : Type} [Numeral α] : Problem α → Option String
  | loadingSettings _ fault => some (Failure.settings fault).message
  | readingFile _ fault => some fault.message
  | _ => none

/-- A run that prints documents on its way. -/
structure Progress (α : Type) where
  session : Session α (Forest α)
  /-- The documents printed so far, the last one first. -/
  printed : List Json

/-- Something done in a run. -/
abbrev RunM (α β : Type) := ExceptT (Problem α) (StateM (Progress α)) β

namespace RunM

variable {α β : Type}

/-- Prints a document. -/
def print (j : Json) : RunM α Unit := modify fun p ↦ { p with printed := j :: p.printed }

/-- A result that does not depend on the run. -/
def ofOutcome (outcome : Outcome α β) : RunM α β :=
  match outcome with
  | .ok b => return b
  | .error failure => throw (.refused failure)

/-- An operation that may change the session. -/
def operate (f : Session α (Forest α) → Outcome α β × Session α (Forest α)) : RunM α β := do
  let p ← get
  let (outcome, session) := f p.session
  set { p with session }
  ofOutcome outcome

end RunM

variable {α : Type} [Scalar α] [Numeral α]

/-- The sequences that the text of a document holds. -/
def sequences? (text : String) : Option (List (List α)) :=
  (Json.parse? text.toList).bind
    (Json.list? Json.depthLimit fun depth ↦ Json.list? depth fun _ ↦ Json.scalar?)

/-- The points of the demonstration that are labelled as anomalous. -/
def flagged (series : List α) (prediction : Prediction α) : List α :=
  ((series.zip prediction.labels).filter (·.2 == 1)).map (·.1)

/-- Trains on made-up data, predicts, and prints everything. -/
def runDemo (engine : Engine α (Forest α)) (now : Time.Instant) (contamination : α) :
    RunM α Unit := do
  let training := Demo.training Keystream.chance
  let summary ← RunM.operate (engine.train now (some training) contamination)
  RunM.print summary.toJson
  let series : List α := Demo.single
  let prediction ← RunM.ofOutcome ((← get).session.predict series)
  RunM.print (.record
    [("anomalous_values", .scalars (flagged series prediction)),
      ("labels", Json.Form.toJson prediction.labels), ("scores", .scalars prediction.scores),
      ("series", .scalars series)])
  let batch ← RunM.ofOutcome ((← get).session.predictBatch Demo.batch)
  RunM.print (batchToJson batch)
  RunM.print (engine.info (← get).session).toJson

/-- Does what a command asks for. -/
def runCommand (engine : Engine α (Forest α)) (now : Time.Instant) (contamination : α) :
    Command α → RunM α Unit
  | .train values chosen => do
    let summary ← RunM.operate (engine.train now values (chosen.getD contamination))
    RunM.print summary.toJson
  | .predict values => do
    let prediction ← RunM.ofOutcome ((← get).session.predict values)
    RunM.print prediction.toJson
  | .predictBatch file => do
    match (← get).session.disk.tree.readText (Files.Path.ofText file) with
    | .error fault => throw (.readingFile file fault)
    | .ok text =>
      match sequences? text with
      | none => throw (.parsingFile file)
      | some sequences =>
        let batch ← RunM.ofOutcome ((← get).session.predictBatch sequences)
        RunM.print (batchToJson batch)
  | .info => do RunM.print (engine.info (← get).session).toJson
  | .demo => runDemo engine now contamination

/-- The settings of a run: those at the given path, or the defaults under the environment. -/
def settingsFor (tree : Files.Tree) (env : Environment) :
    Option String → Except (Problem α) (Settings α)
  | some path => (Settings.load tree env path).mapError (.loadingSettings path)
  | none => (Settings.default.overridden env).mapError fun fault ↦ .refused (.settings fault)

/-- Does what a request asks for. -/
def runRequest (env : Environment) (now : Time.Instant) (request : Request α) : RunM α Unit := do
  let s ← ExceptT.mk (pure (settingsFor (← get).session.disk.tree env request.config))
  let engine ← RunM.ofOutcome ((Engine.new s).mapError .settings)
  modify fun p ↦ { p with session := (engine.restore p.session).2 }
  runCommand engine now s.training.contamination request.command

/-- What a run comes to. -/
structure Response where
  exitCode : Nat
  output : String
  /-- The message on the way out, and its cause. -/
  error : Option String
  cause : Option String
deriving DecidableEq, Repr

/-- The name of the program. -/
def programName : String := "anomaly-scoring"

/-- The version of the program. -/
def programVersion : String := "0.1.0"

/-- How the program is used. -/
def usage : String :=
  "Isolation-forest anomaly scoring for numeric series\n\n" ++
  "Usage: " ++ programName ++ " [OPTIONS] <COMMAND>\n\n" ++
  "Commands:\n" ++
  "  train          Train on the given values, or on the fallback dataset when omitted\n" ++
  "  predict        Score one series against the trained model\n" ++
  "  predict-batch  Score every sequence in a JSON file holding an array of arrays\n" ++
  "  info           Show the current model state\n" ++
  "  demo           Train on synthetic data and score a few sample series\n" ++
  "  help           Print this message or the help of the given subcommand(s)\n\n" ++
  "Options:\n" ++
  "  -c, --config <CONFIG>  TOML configuration file\n" ++
  "  -d, --debug            Enable debug logging\n" ++
  "  -h, --help             Print help\n" ++
  "  -V, --version          Print version\n"

/-- The response to arguments that are not a request. -/
def Stop.response : Stop → Response
  | usage => ⟨2, "", none, none⟩
  | version => ⟨0, programName ++ " " ++ programVersion ++ "\n", none, none⟩
  | help => ⟨0, CommandLine.usage, none, none⟩

/-- Documents as they are printed, each with a line end after it. -/
def printedText (printed : List Json) : String :=
  String.join (printed.reverse.map fun j ↦ j.pretty ++ "\n")

/-- The response to a run that came to the given end. -/
def response (outcome : Except (Problem α) Unit) (printed : List Json) : Response :=
  let output := printedText printed
  match outcome with
  | .ok () => ⟨0, output, none, none⟩
  | .error (.refused (.breach _)) => ⟨101, output, none, none⟩
  | .error problem => ⟨1, output, some problem.message, problem.cause⟩

variable (α) in
/-- Runs the program with the given arguments, environment and disk at the given time. -/
def run (arguments : List String) (env : Environment) (now : Time.Instant) (disk : Files.Disk) :
    Response × Files.Disk :=
  match (Request.ofArguments arguments : Except Stop (Request α)) with
  | .error stop => (stop.response, disk)
  | .ok request =>
    let (outcome, progress) := (runRequest env now request).run ⟨.start disk, []⟩
    (response outcome progress.printed, progress.session.disk)

end OutlierScoring.CommandLine
