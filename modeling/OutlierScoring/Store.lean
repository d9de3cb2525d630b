import OutlierScoring.Files.Disk
import OutlierScoring.Json.Form
import OutlierScoring.Scaler
import OutlierScoring.Time.Instant

/-!
# Stored states

A trained state is kept in two files, one with the model and one with the statistics of the scaler.
`Store.save` writes both files beside their places and only then moves them there, the one with the
statistics first; if the second move fails, the first one is taken back. `Store.load` reads both
files, unless one of them is not there.
-/

namespace OutlierScoring

/-- What the model file holds. -/
structure Blob (M : Type) where
  model : M
  featureNames : List String
  trainedAt : Time.Instant
deriving DecidableEq, Repr

instance {M : Type} [Json.Form M] : Json.Form (Blob M) where
  toJson b := .record
    [("model", Json.Form.toJson b.model), ("feature_names", Json.Form.toJson b.featureNames),
      ("trained_at", Json.Form.toJson b.trainedAt)]
  ofJson? depth j := do
    let (depth, fields) ← Json.fields? ["model", "feature_names", "trained_at"] depth j
    match fields with
    | [some model, some featureNames, some trainedAt] =>
      let model ← Json.Form.ofJson? depth model
      let featureNames ← Json.Form.ofJson? depth featureNames
      let trainedAt ← Json.Form.ofJson? depth trainedAt
      return { model, featureNames, trainedAt }
    | _ => none

/-- The paths of the two files. -/
structure Store where
  modelPath : String
  scalerPath : String
deriving DecidableEq, Repr

namespace Store

open Files

variable {α M : Type}

/-- Something done on a disk that can fail like any operation of the library. -/
abbrev Step (α β : Type) := DiskM (Failure α) β

/-- The paths that the texts of a store spell. -/
def model (store : Store) : Path := .ofText store.modelPath

@[inherit_doc model]
def scaler (store : Store) : Path := .ofText store.scalerPath

/-- Both files are there. -/
def isPresent (store : Store) (tree : Tree) : Bool :=
  tree.isFile store.model && tree.isFile store.scaler

/-- A step for storing something at a path. -/
def storing {β : Type} (path : String) (step : DiskM Files.Fault β) : Step α β :=
  step.adapt fun fault ↦ .persistence path (.file fault)

/-- A step for reading something that is there. -/
def reading {β : Type} (step : DiskM Files.Fault β) : Step α β := step.adapt .unreadableFile

/-- A step that does not touch the disk. -/
def ofOutcome {β : Type} (outcome : Outcome α β) : Step α β := ExceptT.mk (pure outcome)

/-- The content of the file at a path, if there is a file. -/
def readExisting (path : Path) : Step α (Option ByteArray) := do
  if (← get).tree.isFile path then return some (← reading (Disk.read path))
  else return none

/-- Stores two contents in the files of a store. Either both files are replaced or none of them. -/
def replace (store : Store) (model scaler : ByteArray) : Step α Unit := do
  let stagedModel ← storing store.modelPath (Disk.stage store.model "/model" model)
  Disk.keeping stagedModel do
    let stagedScaler ← storing store.scalerPath (Disk.stage store.scaler "/scaler" scaler)
    let previous ← Disk.keeping stagedScaler do
      let previous ← readExisting store.scaler
      storing store.scalerPath (Disk.commit stagedScaler store.scaler)
      return previous
    tryCatch (storing store.modelPath (Disk.commit stagedModel store.model)) fun failure ↦ do
      Disk.restore store.scaler previous
      throw failure

/-- Stores a model and the statistics that go with it. -/
def save [Json.Form M] [Scalar α] [Numeral α] (store : Store) (blob : Blob M)
    (statistics : Statistics α) : Step α Unit :=
  store.replace (Json.Form.toJson blob).compact.toUTF8 (Json.Form.toJson statistics).pretty.toUTF8

/-- The value that the content of a file stands for. -/
def decode {β : Type} [Json.Form β] (content : ByteArray) : Outcome α β :=
  match (String.fromUTF8? content).bind Json.Form.read? with
  | some b => .ok b
  | none => .error .malformedDocument

/-- The stored model and statistics, unless one of the files is not there. -/
def load [Json.Form M] [Scalar α] [Numeral α] (store : Store) :
    Step α (Option (Blob M × Statistics α)) := do
  if store.isPresent (← get).tree then
    let model ← reading (Disk.read store.model)
    let blob ← ofOutcome (decode model)
    let scaler ← reading (Disk.read store.scaler)
    let statistics ← ofOutcome (decode scaler)
    return some (blob, statistics)
  else return none

end Store

end OutlierScoring
