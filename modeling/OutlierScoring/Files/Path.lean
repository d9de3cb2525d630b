/-!
# Paths

A path is read once into the place where it starts and the names to follow from there. Two slashes
in a row, or one at the end, leave an empty name behind; like `.` it names the folder that has been
reached, which is why such a name is kept until the path is followed.
-/

namespace OutlierScoring.Files

/-- A path: where it starts, and the names to follow from there. -/
structure Path where
  /-- Starts at the root and not at the working folder. -/
  absolute : Bool
  /-- The names between the slashes, some of them perhaps empty. -/
  names : List String
deriving DecidableEq, Repr

namespace Path

/-- The names between the slashes of a text; `name` is the name being read, in reverse. -/
def splitNames (name : List Char) : List Char → List String
  | [] => [String.ofList name.reverse]
  | '/' :: rest => String.ofList name.reverse :: splitNames [] rest
  | c :: rest => splitNames (c :: name) rest

/-- The path that a text spells. The empty text spells no name at all. -/
def ofText (text : String) : Path :=
  match text.toList with
  | [] => ⟨false, []⟩
  | '/' :: rest => ⟨true, splitNames [] rest⟩
  | s => ⟨false, splitNames [] s⟩

/-- A name that stays where it is. -/
def isIdle (name : String) : Bool := name == "" || name == "."

/-- A name of the path holds the character that ends names. -/
def hasNul (path : Path) : Bool := path.names.any (·.toList.contains '\x00')

/-- The folder that a path puts its last name into; the working folder if there is no such name. -/
def folder (path : Path) : Path :=
  match (path.names.reverse.dropWhile isIdle) with
  | [] => ⟨false, ["."]⟩
  | [_] => if path.absolute then ⟨true, [""]⟩ else ⟨false, ["."]⟩
  | _ :: names => ⟨path.absolute, names.reverse⟩

end Path

end OutlierScoring.Files
