import OutlierScoring.Json.Basic

/-!
# Writing documents

Two layouts: `Json.compact` without any blanks, and `Json.pretty` with two spaces per level and one
item or member per line. Both functions write a document in front of a given text, so that a whole
document costs one step per character and `write j (a ++ b) = write j a ++ b` holds piece by piece.
-/

namespace OutlierScoring.Json

/-- Writes a text in front of another one. -/
def put (s : String) (rest : List Char) : List Char := s.toList ++ rest

/-- A hexadecimal digit in lower case. -/
def hexDigit (n : Nat) : Char := (Nat.toDigits 16 (n % 16)).headD '0'

/-- A character inside a string: quotes, backslashes and control characters are escaped, the
latter by a letter where they have one. -/
def writeChar (c : Char) (rest : List Char) : List Char :=
  match c with
  | '"' => '\\' :: '"' :: rest
  | '\\' => '\\' :: '\\' :: rest
  | '\n' => '\\' :: 'n' :: rest
  | '\r' => '\\' :: 'r' :: rest
  | '\t' => '\\' :: 't' :: rest
  | '\x08' => '\\' :: 'b' :: rest
  | '\x0c' => '\\' :: 'f' :: rest
  | c =>
    if c.toNat < 32 then
      '\\' :: 'u' :: '0' :: '0' :: hexDigit (c.toNat / 16) :: hexDigit c.toNat :: rest
    else c :: rest

/-- A string between quotes. -/
def writeText (s : String) (rest : List Char) : List Char :=
  '"' :: s.toList.foldr writeChar ('"' :: rest)

/-- The text of a number. -/
def Number.write : Number → String
  | .integer n => toString n
  | .real d => d.write .document

mutual

/-- A document without blanks. -/
def writeCompact (rest : List Char) : Json → List Char
  | .null => put "null" rest
  | .bool b => put (if b then "true" else "false") rest
  | .number n => put n.write rest
  | .text s => writeText s rest
  | .garbled => put "null" rest
  | .list [] => '[' :: ']' :: rest
  | .list (item :: items) => '[' :: writeCompact (writeCompactItems rest items) item
  | .record [] => '\x7b' :: '\x7d' :: rest
  | .record ((name, value) :: members) =>
    '\x7b' :: writeText name (':' :: writeCompact (writeCompactMembers rest members) value)

/-- The further items of a list and its end. -/
def writeCompactItems (rest : List Char) : List Json → List Char
  | [] => ']' :: rest
  | item :: items => ',' :: writeCompact (writeCompactItems rest items) item

/-- The further members of a record and its end. -/
def writeCompactMembers (rest : List Char) : List (String × Json) → List Char
  | [] => '\x7d' :: rest
  | (name, value) :: members =>
    ',' :: writeText name (':' :: writeCompact (writeCompactMembers rest members) value)

end

/-- A new line with the indentation of a level. -/
def newLine (level : Nat) (rest : List Char) : List Char :=
  '\n' :: List.replicate (2 * level) ' ' ++ rest

mutual

/-- A document at a level of indentation. -/
def writePretty (level : Nat) (rest : List Char) : Json → List Char
  | .null => put "null" rest
  | .bool b => put (if b then "true" else "false") rest
  | .number n => put n.write rest
  | .text s => writeText s rest
  | .garbled => put "null" rest
  | .list [] => '[' :: ']' :: rest
  | .list (item :: items) =>
    '[' :: newLine (level + 1)
      (writePretty (level + 1) (writePrettyItems level rest items) item)
  | .record [] => '\x7b' :: '\x7d' :: rest
  | .record ((name, value) :: members) =>
    '\x7b' :: newLine (level + 1) (writeText name (':' :: ' ' ::
      writePretty (level + 1) (writePrettyMembers level rest members) value))

/-- The further items of a list and its end. -/
def writePrettyItems (level : Nat) (rest : List Char) : List Json → List Char
  | [] => newLine level (']' :: rest)
  | item :: items =>
    ',' :: newLine (level + 1)
      (writePretty (level + 1) (writePrettyItems level rest items) item)

/-- The further members of a record and its end. -/
def writePrettyMembers (level : Nat) (rest : List Char) : List (String × Json) → List Char
  | [] => newLine level ('\x7d' :: rest)
  | (name, value) :: members =>
    ',' :: newLine (level + 1) (writeText name (':' :: ' ' ::
      writePretty (level + 1) (writePrettyMembers level rest members) value))

end

/-- The document in one line without blanks. -/
def compact (j : Json) : String := String.ofList (writeCompact [] j)

/-- The document with one item or member per line. -/
def pretty (j : Json) : String := String.ofList (writePretty 0 [] j)

end OutlierScoring.Json
