import OutlierScoring.Csv.Table
import OutlierScoring.Files.Tree
import OutlierScoring.Matrix.Features

/-!
# Data sets

Where a training matrix comes from when the caller has none: a matrix at hand, or a table file. Of a
table only the complete numeric part is used: the columns in which every cell that is not empty is a
finite number, and the rows in which none of these columns is empty.
-/

namespace OutlierScoring

/-- A supply of a training matrix. -/
structure Dataset (α : Type) where
  /-- What the data set is called in messages and summaries. -/
  name : String
  /-- The training matrix, as far as it depends on the files that are there. -/
  load : Files.Tree → Outcome α (FeatureMatrix α)

namespace Csv.Table

variable {α : Type} [Scalar α] [Numeral α]

/-- The cells of a column that are not empty. -/
def filled (table : Table) (column : Nat) : List String :=
  (table.rows.filterMap (·[column]?)).filter (· ≠ "")

/-- A column that has cells which are not empty, all of which hold finite numbers. -/
def isNumeric (α : Type) [Scalar α] [Numeral α] (table : Table) (column : Nat) : Bool :=
  !(table.filled column).isEmpty &&
    (table.filled column).all fun cell ↦
      ((Numeral.read? cell : Option α).map Scalar.isFinite).getD false

/-- The numeric columns in their order. -/
def numericColumns (α : Type) [Scalar α] [Numeral α] (table : Table) : Array Nat :=
  ((List.range table.header.length).filter (table.isNumeric α)).toArray

/-- The number in the cell of a row, if it holds one. -/
def cell? {α : Type} [Numeral α] (row : List String) (column : Nat) : Option α :=
  row[column]?.bind Numeral.read?

/-- All of the columns hold numbers in a row. -/
def isComplete (α : Type) [Numeral α] (columns : Array Nat) (row : List String) : Bool :=
  columns.all fun column ↦ (cell? row column : Option α).isSome

/-- The numbers of a complete row. -/
def numbers (columns : Array Nat) (row : List String) : Vector α columns.size :=
  Vector.ofFn fun k ↦ (cell? row columns[k]).getD 0

/-- The complete numeric part of the table at a path. -/
def numericPart (table : Table) (path : String) : Outcome α (FeatureMatrix α) :=
  let columns := table.numericColumns α
  if columns.isEmpty then .error (.dataset path .noNumericColumns)
  else
    let rows := table.rows.filter (isComplete α columns)
    if rows.isEmpty then .error (.dataset path .noCompleteRows)
    else
      .ok {
        names := columns.toList.map fun column ↦ table.header[column]?.getD ""
        values := ⟨columns.size, (rows.map (numbers columns)).toArray⟩ }

end Csv.Table

namespace Dataset

variable {α : Type}

/-- A matrix at hand under a name. It must have columns and rows to be trained on. -/
def ofMatrix (name : String) (m : FeatureMatrix α) : Dataset α where
  name
  load _ :=
    if m.values.width = 0 then .error (.dataset name .noNumericColumns)
    else if m.values.height = 0 then .error (.dataset name .noCompleteRows)
    else .ok m

/-- The complete numeric part of the table file at a path. -/
def ofFile [Scalar α] [Numeral α] (path : String) : Dataset α where
  name := path
  load tree :=
    let source := Files.Path.ofText path
    if tree.isFile source then
      match tree.read source with
      | .error fault => .error (.dataset path (.unreadable (.file fault)))
      | .ok content =>
        match Csv.Table.ofBytes content.data.toList with
        | .error fault => .error (.dataset path (.unreadable fault))
        | .ok table => table.numericPart path
    else .error (.dataset path .notFound)

end Dataset

end OutlierScoring
