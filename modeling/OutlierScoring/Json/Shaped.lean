import OutlierScoring.Json.Form

/-!
# Shaped arrays in documents

An array of numbers with dimensions is kept as a record of three members: a version mark, the
dimensions, and the numbers in one list with the last dimension running fastest. Unlike other
records it admits no further members, while of a repeated member the last one counts.
-/

namespace OutlierScoring.Json

/-- Numbers in one list, and the dimensions that arrange them. -/
structure Shaped (α : Type) where
  dims : List Nat
  cells : List α
deriving Repr

namespace Shaped

variable {α : Type}

/-- The version that is written and read. -/
def version : Nat := 1

/-- The document for a shaped array. -/
def toJson [Numeral α] (a : Shaped α) : Json :=
  .record [("v", .nat version), ("dim", .list (a.dims.map .nat)), ("data", scalars a.cells)]

/-- The members that have been read. -/
structure Partial (α : Type) where
  version : Option Unit
  dims : Option (List Nat)
  cells : Option (List α)

/-- The number of cells that the dimensions ask for. The extents other than zero may not multiply
to more than memory can hold. -/
def cellCount? (dims : List Nat) : Option Nat :=
  if (dims.filter (· ≠ 0)).foldl (· * ·) 1 < UInt64.size / 2 then some (dims.foldl (· * ·) 1)
  else none

variable [Scalar α] [Numeral α]

/-- Reads one member, of an array with `rank` dimensions. -/
def readMember? (rank depth : Nat) (soFar : Partial α) : String × Json → Option (Partial α)
  | ("v", value) => do
    let n ← nat? value
    if n = Shaped.version then some { soFar with version := some () } else none
  | ("dim", value) => do
    let dims ← list? depth (fun _ ↦ nat?) value
    if dims.length = rank then some { soFar with dims := some dims } else none
  | ("data", value) => do
    let cells ← list? depth (fun _ ↦ scalar?) value
    some { soFar with cells := some cells }
  | _ => none

/-- The members of an array that is written as a record or as the list of their values. -/
def members? : Json → Option (List (String × Json))
  | .record members => some members
  | .list [version, dims, cells] => some [("v", version), ("dim", dims), ("data", cells)]
  | _ => none

/-- The array of `rank` dimensions that a document stands for. -/
def ofJson? (rank depth : Nat) (j : Json) : Option (Shaped α) :=
  match depth with
  | 0 => none
  | depth + 1 => do
    let members ← members? j
    let read ← members.foldlM (readMember? rank depth) ⟨none, none, none⟩
    let () ← read.version
    let dims ← read.dims
    let cells ← read.cells
    if cellCount? dims = some cells.length then some ⟨dims, cells⟩ else none

end Shaped

end OutlierScoring.Json
