import OutlierScoring.Csv.Reader
import OutlierScoring.Text.Blank
import OutlierScoring.Text.Utf8

/-!
# Tables

A table is a header and rows of cells, all of one width, without blanks around any of them. It is
what the records of a table file are if they are UTF-8 and equally wide (`Table.ofBytes`). Faults
are found record by record; of two faults in one record its width counts first.
-/

namespace OutlierScoring.Csv

/-- A header, and rows that are as wide as it is. -/
structure Table where
  header : List String
  rows : List (List String)
deriving DecidableEq, Repr

/-- A byte that is blank by itself. -/
def isBlankByte (b : UInt8) : Bool :=
  b == 0x20 || b == 0x09 || b == 0x0A || b == 0x0C || b == 0x0D

/-- A field without the blank bytes at both of its ends. -/
def trimBytes (field : List UInt8) : List UInt8 :=
  ((field.dropWhile isBlankByte).reverse.dropWhile isBlankByte).reverse

/-- The texts of the fields of a record, without blanks around them. -/
def Record.texts (record : Record) (index : Nat) : Except Fault (List String) :=
  record.fields.zipIdx.mapM fun (field, j) ↦
    match Utf8.decode? field with
    | some text => .ok (Text.trim text)
    | none => .error (.garbledField index record.position j (Utf8.validPrefix field))

/-- The cells of a record, if there are as many as there should be. Blank bytes are dropped before
the cells are read as texts. -/
def Record.cells (record : Record) (index width : Nat) : Except Fault (List String) :=
  if record.fields.length = width then
    { record with fields := record.fields.map trimBytes }.texts index
  else .error (.unequalWidths index record.position record.fields.length width)

/-- The table in the bytes of a file. A file without any record has an empty header. -/
def Table.ofBytes (file : List UInt8) : Except Fault Table :=
  match records file with
  | [] => .ok ⟨[], []⟩
  | header :: rows => do
    let names ← header.texts 0
    let rows ← rows.zipIdx.mapM fun (row, i) ↦ row.cells (i + 1) header.fields.length
    return ⟨names, rows⟩

end OutlierScoring.Csv
