import OutlierScoring.Files.Fault

/-!
# What goes wrong with tables

Why a table file cannot be read as one, and what a message says about it. The place of a fault is
the number of the record, from `0` for the header, with the line and the byte at which reading of
that record began.
-/

namespace OutlierScoring.Csv

/-- Where reading was when it began a record. Lines count from `1`, bytes from `0`. -/
structure Position where
  line : Nat
  byte : Nat
deriving DecidableEq, Repr, Inhabited

/-- Why a table file cannot be read. -/
inductive Fault where
  /-- The file itself cannot be read. -/
  | file (fault : Files.Fault)
  /-- A record has another number of fields than the header. -/
  | unequalWidths (record : Nat) (position : Position) (fields expected : Nat)
  /-- A field is not UTF-8 after so many bytes of it. -/
  | garbledField (record : Nat) (position : Position) (field : Nat) (valid : Nat)
deriving DecidableEq, Repr

/-- What a message says about a fault. -/
def Fault.message : Fault → String
  | file fault => fault.message
  | unequalWidths record position fields expected =>
    s!"CSV error: record {record} (line: {position.line}, byte: {position.byte}): " ++
      s!"found record with {fields} fields, but the previous record has {expected} fields"
  | garbledField record position field valid =>
    s!"CSV parse error: record {record} (line {position.line}, field: {field}, " ++
      s!"byte: {position.byte}): invalid utf-8: " ++
      s!"invalid UTF-8 in field {field} near byte index {valid}"

end OutlierScoring.Csv
