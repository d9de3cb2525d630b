import OutlierScoring.Files.Fault
import OutlierScoring.Files.Path
import OutlierScoring.Text.Utf8

/-!
# File trees

The files and folders that a program can see, as a value. A `Location` is a place in the tree, named
by the folders around it from the inside out; `Tree.resolve` follows a path to its location. Two
paths reach the same file exactly if they resolve to the same location.

The working folder, the folders above it and the root are always there. No path leads to a location
whose last name contains a slash, which is what makes such names free for files that nobody else
may touch.
-/

namespace OutlierScoring.Files

/-- What stands at a location. -/
inductive Entry where
  | file (content : ByteArray)
  | folder
deriving Inhabited

instance : DecidableEq Entry
  | .file a, .file b => decidable_of_iff (a.data = b.data) (by simp [ByteArray.ext_iff])
  | .folder, .folder => .isTrue rfl
  | .file _, .folder | .folder, .file _ => .isFalse nofun

/-- A place in a file tree: its name, the name of the folder around it, and so on. The empty list is
the working folder, `[".."]` the folder around that, and `["/"]` the root. -/
abbrev Location := List String

namespace Location

/-- The folder around a location. -/
def up : Location → Location
  | [] => [".."]
  | ["/"] => ["/"]
  | name :: rest => if name = ".." then name :: name :: rest else rest

/-- A location whose folder is there whatever a tree holds. -/
def isGiven (place : Location) : Bool := place == ["/"] || place.all (· == "..")

/-- The location, or one that lies inside of it. -/
def isInside (inner outer : Location) : Bool := outer.isSuffixOf inner

end Location

/-- Files and folders by their locations. Of several entries for a location the first one counts. -/
structure Tree where
  entries : List (Location × Entry)
deriving Inhabited

namespace Tree

/-- The tree with nothing in it. -/
def empty : Tree := ⟨[]⟩

/-- What stands at a location. -/
def find? (tree : Tree) (place : Location) : Option Entry :=
  if place.isGiven then some .folder else tree.entries.lookup place

/-- The tree with an entry put at a location. -/
def set (tree : Tree) (place : Location) (entry : Entry) : Tree :=
  ⟨(place, entry) :: tree.entries.filter (·.1 != place)⟩

/-- The tree without what stands at a location. -/
def erase (tree : Tree) (place : Location) : Tree :=
  ⟨tree.entries.filter (·.1 != place)⟩

/-- The tree without what stands at a location or inside of it. -/
def eraseInside (tree : Tree) (place : Location) : Tree :=
  ⟨tree.entries.filter fun entry ↦ !entry.1.isInside place⟩

theorem find?_set_self (tree : Tree) {place : Location} (entry : Entry)
    (h : place.isGiven = false) : (tree.set place entry).find? place = some entry := by
  simp [find?, set, h]

theorem find?_erase_self (tree : Tree) {place : Location} (h : place.isGiven = false) :
    (tree.erase place).find? place = none := by
  simp only [find?, erase, h]
  grind

/-- Looking up a key is not changed by dropping the entries of another one. -/
theorem lookup_filter_ne {place other : Location} (h : other ≠ place) :
    ∀ entries : List (Location × Entry),
      (entries.filter (·.1 != place)).lookup other = entries.lookup other
  | [] => rfl
  | (first, entry) :: entries => by
    by_cases hp : first = place
    · subst hp
      have : (other == first) = false := by simpa using h
      simp [List.lookup_cons, this, lookup_filter_ne h entries]
    · have : (first != place) = true := by simpa using hp
      simp only [List.filter_cons, this, if_true, List.lookup_cons]
      split <;> simp [lookup_filter_ne h entries]

theorem find?_set_of_ne (tree : Tree) {place other : Location} (entry : Entry)
    (h : other ≠ place) : (tree.set place entry).find? other = tree.find? other := by
  have : (other == place) = false := by simpa using h
  simp [find?, set, List.lookup_cons, this, lookup_filter_ne h]

theorem find?_erase_of_ne (tree : Tree) {place other : Location} (h : other ≠ place) :
    (tree.erase place).find? other = tree.find? other := by
  simp [find?, erase, lookup_filter_ne h]

/-! ### Following paths -/

/-- Names can be this many bytes long. -/
def maxNameSize : Nat := 255

/-- Succeeds if a folder stands at a location. -/
def requireFolder (tree : Tree) (place : Location) : Except Fault Unit :=
  match tree.find? place with
  | some .folder => .ok ()
  | some (.file _) => .error .notFolder
  | none => .error .notFound

/-- The location that a name leads to from the folder at `place`. -/
def follow (tree : Tree) (place : Location) (name : String) : Except Fault Location := do
  tree.requireFolder place
  if Path.isIdle name then return place
  else if name = ".." then return place.up
  else if maxNameSize < name.utf8ByteSize then throw .nameTooLong
  else return name :: place

/-- Where a path starts. -/
def start (path : Path) : Location := if path.absolute then ["/"] else []

/-- The location that a path leads to. Every folder on the way has to be there, the last name need
not be. -/
def resolve (tree : Tree) (path : Path) : Except Fault Location :=
  if path.hasNul then .error .nulInName
  else if path.names.isEmpty then .error .notFound
  else path.names.foldlM tree.follow (start path)

/-! ### Reading -/

/-- A file stands at a path. -/
def isFile (tree : Tree) (path : Path) : Bool :=
  match tree.resolve path with
  | .ok place => match tree.find? place with
    | some (.file _) => true
    | _ => false
  | .error _ => false

/-- The content of the file at a path. -/
def read (tree : Tree) (path : Path) : Except Fault ByteArray := do
  match tree.find? (← tree.resolve path) with
  | some (.file content) => return content
  | some .folder => throw .isFolder
  | none => throw .notFound

/-- The text of the file at a path. -/
def readText (tree : Tree) (path : Path) : Except Fault String := do
  match String.fromUTF8? (← tree.read path) with
  | some text => return text
  | none => throw .notText

/-! ### Writing -/

/-- The tree with a file at a path, whatever file was there before. -/
def write (tree : Tree) (path : Path) (content : ByteArray) : Except Fault Tree := do
  let place ← tree.resolve path
  match tree.find? place with
  | some .folder => throw .isFolder
  | _ => return tree.set place (.file content)

/-- The tree without the file at a path. -/
def remove (tree : Tree) (path : Path) : Except Fault Tree := do
  let place ← tree.resolve path
  match tree.find? place with
  | some (.file _) => return tree.erase place
  | some .folder => throw .isFolder
  | none => throw .notFound

/-- The tree with the file at `source` moved to a path, where it replaces a file. -/
def move (tree : Tree) (source : Location) (path : Path) : Except Fault Tree := do
  let place ← tree.resolve path
  match tree.find? place, tree.find? source with
  | some .folder, _ => throw .isFolder
  | _, none => throw .notFound
  | _, some entry => return (tree.erase source).set place entry

/-- Follows the names, making each folder that is missing. The folders made before a name that
cannot be followed stay. -/
def makeFoldersFrom (tree : Tree) (place : Location) : List String → Option Fault × Tree
  | [] => (none, tree)
  | name :: names =>
    match tree.follow place name with
    | .error fault => (some fault, tree)
    | .ok place =>
      match tree.find? place with
      | some .folder => tree.makeFoldersFrom place names
      | some (.file _) => (some .occupied, tree)
      | none => (tree.set place .folder).makeFoldersFrom place names

/-- Makes the folder at a path and all folders on the way to it. -/
def makeFolders (tree : Tree) (path : Path) : Option Fault × Tree :=
  if path.hasNul then (some .nulInName, tree)
  else tree.makeFoldersFrom (start path) path.names

end Tree

end OutlierScoring.Files
