import OutlierScoring.CommandLine.Run

/-!
# The program

Reads the arguments, the environment, the clock and the files that a run can look at, lets
`CommandLine.run` compute the response and the files as they are afterwards, and brings both into
the world. Nothing is decided here.
-/

namespace OutlierScoring.Main

open Files

/-- The environment variables that settings depend on. -/
def variableNames : List String := (Override.all : List (Override Float)).map (·.variableName)

/-- The environment, as far as settings depend on it. -/
def readEnvironment : IO Environment := do
  let values ← variableNames.mapM fun name ↦ do return (name, ← IO.getEnv name)
  return fun name ↦ (values.lookup name).bind id

/-- The time at which a new file is made. -/
def readClock : IO Time.Instant := do
  let (_, path) ← IO.FS.createTempFile
  let modified := (← path.metadata).modified
  IO.FS.removeFile path
  return .ofUnix modified.sec.toNat modified.nsec.toNat

/-- The path of a location, from the working folder or from the root. -/
def spell (place : Location) : String :=
  match place.reverse with
  | [] => "."
  | "/" :: names => "/" ++ String.intercalate "/" names
  | names => String.intercalate "/" names

/-- What stands at a location. -/
def readEntry (place : Location) : IO (Option Entry) := do
  try
    return some (.file (← IO.FS.readBinFile (spell place)))
  catch
    | .inappropriateType none 21 _ => return some .folder
    | .inappropriateType (some _) 21 _ => return some .folder
    | _ => return none

/-- The tree with what stands at each location on the way along some names. -/
def captureFrom (tree : Tree) (place : Location) : List String → IO Tree
  | [] => return tree
  | name :: names => do
    let place :=
      if Path.isIdle name then place else if name == ".." then place.up else name :: place
    if (tree.find? place).isSome then captureFrom tree place names
    else
      match ← readEntry place with
      | some entry => captureFrom (tree.set place entry) place names
      | none => return tree

/-- The tree with everything that stands on the way to a path. -/
def capture (tree : Tree) (path : String) : IO Tree :=
  let path := Path.ofText path
  captureFrom tree (Tree.start path) path.names

/-- The files that a run can look at. -/
def readFiles (arguments : List String) (env : Environment) : IO Tree := do
  match (CommandLine.Request.ofArguments arguments :
      Except CommandLine.Stop (CommandLine.Request Float)) with
  | .error _ => return .empty
  | .ok request =>
    let mut tree := Tree.empty
    for path in request.config.toList do
      tree ← capture tree path
    if let .predictBatch file := request.command then
      tree ← capture tree file
    let settings : Except (CommandLine.Problem Float) (Settings Float) :=
      CommandLine.settingsFor tree env request.config
    match settings with
    | .error _ => return tree
    | .ok s =>
      for path in [s.training.fallbackDataset, s.storage.modelPath, s.storage.scalerPath] do
        tree ← capture tree path
      return tree

/-- Makes the folders and writes the files in which the second tree differs from the first one. -/
def writeChanges (before after : Tree) : IO Unit := do
  for (place, entry) in after.entries.reverse do
    if before.find? place != some entry then
      match entry with
      | .folder => IO.FS.createDirAll (spell place)
      | .file content =>
        -- A file is written beside its place first, so that no one finds half of it there.
        let draft := spell place ++ ".new"
        IO.FS.writeBinFile draft content
        IO.FS.rename draft (spell place)

end OutlierScoring.Main

open OutlierScoring Main in
/-- Runs the program and ends with its exit code. -/
def main (arguments : List String) : IO UInt32 := do
  let env ← readEnvironment
  let now ← readClock
  let before ← readFiles arguments env
  let (response, after) := CommandLine.run Float arguments env now (.ofTree before)
  writeChanges before after.tree
  IO.print response.output
  for message in response.error.toList do
    IO.eprintln ("Error: " ++ message)
  for cause in response.cause.toList do
    IO.eprintln ("\nCaused by:\n    " ++ cause)
  return response.exitCode.toUInt32
