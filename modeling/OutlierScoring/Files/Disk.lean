import OutlierScoring.Files.Tree

/-!
# Disks

A disk is a file tree on a device that may refuse operations. Which operations it refuses is written
down in advance, one flag for each operation that is still to come, so that a statement about every
list of flags is one about every way in which the device can fail. Operations that nobody waits for,
taking back a change and dropping a file that was never finished, are not refused.

Files are written beside their place first and then moved there: `stage` makes such a file, `commit`
moves it, `discard` drops it.
-/

namespace OutlierScoring.Files

/-- A file tree, and which of the operations to come its device will refuse. -/
structure Disk where
  tree : Tree
  /-- One flag for each operation to come, `true` where it is refused; the device refuses nothing
  after that. -/
  refusals : List Bool
deriving Inhabited

/-- Something done on a disk that may fail. The disk stays as it is at the failure. -/
abbrev DiskM (ε β : Type) := ExceptT ε (StateM Disk) β

/-- A file that was written beside its place. -/
structure Staged where
  place : Location

namespace Disk

/-- The disk with the given files, whose device refuses nothing. -/
def ofTree (tree : Tree) : Disk := ⟨tree, []⟩

/-- Fails if the device refuses the operation at hand. -/
def attempt : DiskM Fault Unit := do
  let disk ← get
  match disk.refusals with
  | [] => return
  | refused :: refusals =>
    set { disk with refusals }
    if refused then throw .device

/-- A look at the tree. -/
def look {β : Type} (f : Tree → Except Fault β) : DiskM Fault β := do
  match f (← get).tree with
  | .ok b => return b
  | .error fault => throw fault

/-- A change of the tree. -/
def change (f : Tree → Except Fault Tree) : DiskM Fault Unit := do
  let disk ← get
  match f disk.tree with
  | .ok tree => set { disk with tree }
  | .error fault => throw fault

/-- The content of the file at a path. -/
def read (path : Path) : DiskM Fault ByteArray := do
  attempt
  look (·.read path)

/-- Makes a folder and all folders on the way to it. -/
def makeFolders (path : Path) : DiskM Fault Unit := do
  attempt
  let disk ← get
  let (fault, tree) := disk.tree.makeFolders path
  set { disk with tree }
  match fault with
  | none => return
  | some fault => throw fault

/-- Drops a file that was not moved to its place. -/
def discard {ε : Type} (staged : Staged) : DiskM ε Unit :=
  modify fun disk ↦ { disk with tree := disk.tree.erase staged.place }

/-- Runs a step that needs a staged file, and drops the file if the step fails. -/
def keeping {ε β : Type} (staged : Staged) (step : DiskM ε β) : DiskM ε β :=
  tryCatch step fun fault ↦ do
    discard staged
    throw fault

/-- Writes a content into a new file of the given name beside the file at a path. A name that
contains a slash cannot meet any other file. -/
def stage (path : Path) (name : String) (content : ByteArray) : DiskM Fault Staged := do
  makeFolders path.folder
  attempt
  let folder ← look (·.resolve path.folder)
  look (·.requireFolder folder)
  let staged : Staged := ⟨name :: folder⟩
  change fun tree ↦ .ok (tree.set staged.place (.file ⟨#[]⟩))
  keeping staged do
    attempt
    change fun tree ↦ .ok (tree.set staged.place (.file content))
    -- Forces the content to the device.
    attempt
    return staged

/-- Moves a staged file to its place, where it replaces a file. If that fails, nothing changes. -/
def commit (staged : Staged) (path : Path) : DiskM Fault Unit := do
  attempt
  change (·.move staged.place path)

/-- Gives a path the content that it had, or no file if there was none. -/
def restore {ε : Type} (path : Path) (previous : Option ByteArray) : DiskM ε Unit :=
  modify fun disk ↦
    let tree :=
      match previous with
      | some content => disk.tree.write path content
      | none => disk.tree.remove path
    match tree with
    | .ok tree => { disk with tree }
    | .error _ => disk

end Disk

end OutlierScoring.Files
