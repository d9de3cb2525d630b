import OutlierScoring.Csv.Fault

/-!
# Records of a table file

A table file is a sequence of records, each a line of fields with commas between them. `Csv.records`
divides the bytes of a file into records without looking at what the fields mean:

* a line ends with a line feed, a carriage return or both, and empty lines are no records;
* a quote as the first byte of a field opens a quoted part, in which commas and line ends are bytes
  like all others and two quotes stand for one; after the closing quote the field goes on as usual;
* what is open at the end of the file ends there.

Every record comes with the position at which it was begun, which is right after the byte that ended
the record before it.
-/

namespace OutlierScoring.Csv

/-- The bytes of a file that mean something. -/
def comma : UInt8 := 0x2C

@[inherit_doc comma]
def quote : UInt8 := 0x22

@[inherit_doc comma]
def lineFeed : UInt8 := 0x0A

/-- A byte that ends a line. -/
def isLineEnd (b : UInt8) : Bool := b == lineFeed || b == 0x0D

/-- The position after a byte. -/
def Position.after (p : Position) (b : UInt8) : Position :=
  ⟨if b == lineFeed then p.line + 1 else p.line, p.byte + 1⟩

/-- The fields of a record, and where it was begun. -/
structure Record where
  position : Position
  fields : List (List UInt8)
deriving DecidableEq, Repr

/-- What the bytes read so far leave open. -/
inductive State where
  /-- Between two records. -/
  | between
  /-- At the first byte of a field. -/
  | fieldStart
  /-- In a field, outside of quotes. -/
  | plain
  /-- In the quoted part of a field. -/
  | quoted
  /-- After a quote in the quoted part, which closes it unless another one follows. -/
  | closing
deriving DecidableEq, Repr

/-- A record that is being read: its fields, the last one first, and the bytes of the field at hand,
the last one first. -/
structure Draft where
  position : Position
  fields : List (List UInt8)
  field : List UInt8

namespace Draft

/-- A record that begins at a position. -/
def begin (position : Position) : Draft := ⟨position, [], []⟩

/-- One more byte in the field at hand. -/
def push (d : Draft) (b : UInt8) : Draft := { d with field := b :: d.field }

/-- The field at hand is finished. -/
def nextField (d : Draft) : Draft := { d with fields := d.field.reverse :: d.fields, field := [] }

/-- The record is finished. -/
def finish (d : Draft) : Record := ⟨d.position, d.nextField.fields.reverse⟩

end Draft

/-- The records in the rest of a file; `next` is the position of its first byte. -/
def recordsFrom (state : State) (draft : Draft) (next : Position) : List UInt8 → List Record
  | [] => if state = .between then [] else [draft.finish]
  | b :: rest =>
    let next := next.after b
    match state with
    | .quoted =>
      if b == quote then recordsFrom .closing draft next rest
      else recordsFrom .quoted (draft.push b) next rest
    | .between =>
      if isLineEnd b then recordsFrom .between draft next rest
      else if b == quote then recordsFrom .quoted draft next rest
      else if b == comma then recordsFrom .fieldStart draft.nextField next rest
      else recordsFrom .plain (draft.push b) next rest
    | .fieldStart =>
      if b == quote then recordsFrom .quoted draft next rest
      else if b == comma then recordsFrom .fieldStart draft.nextField next rest
      else if isLineEnd b then draft.finish :: recordsFrom .between (.begin next) next rest
      else recordsFrom .plain (draft.push b) next rest
    | .closing =>
      if b == quote then recordsFrom .quoted (draft.push b) next rest
      else if b == comma then recordsFrom .fieldStart draft.nextField next rest
      else if isLineEnd b then draft.finish :: recordsFrom .between (.begin next) next rest
      else recordsFrom .plain (draft.push b) next rest
    | .plain =>
      if b == comma then recordsFrom .fieldStart draft.nextField next rest
      else if isLineEnd b then draft.finish :: recordsFrom .between (.begin next) next rest
      else recordsFrom .plain (draft.push b) next rest

/-- The records of a file. The byte order mark that a UTF-8 file may begin with, the bytes
`EF BB BF`, is no part of the first field, but the first record begins with it. -/
def records (file : List UInt8) : List Record :=
  let start : Position := ⟨1, 0⟩
  match file with
  | 0xEF :: 0xBB :: 0xBF :: rest => recordsFrom .between (.begin start) ⟨1, 3⟩ rest
  | _ => recordsFrom .between (.begin start) start file

end OutlierScoring.Csv
