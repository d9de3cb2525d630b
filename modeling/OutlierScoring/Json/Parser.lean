import OutlierScoring.Json.Basic

/-!
# Reading documents

`Json.parse?` accepts exactly the documents of RFC 8259, blanks around them included. It knows no
limit for the size of numbers. Lists and records may nest up to `maxNesting` levels; what a reader
makes of the nesting is its own affair.

The mutual functions below take a fuel that every one of them spends on at least one character, so
that the length of the text is always enough.
-/

namespace OutlierScoring.Json

/-- A character that may stand between the parts of a document. -/
def isSpace (c : Char) : Bool := c == ' ' || c == '\n' || c == '\t' || c == '\r'

/-- The text after the leading blanks. -/
def skipSpace (s : List Char) : List Char := s.dropWhile isSpace

/-- The text after a given one at its front. -/
def dropWord? (word : List Char) (s : List Char) : Option (List Char) :=
  match word, s with
  | [], s => some s
  | _ :: _, [] => none
  | w :: ws, c :: cs => if w = c then dropWord? ws cs else none

/-! ### Numbers -/

/-- The digits before the point: a single zero, or digits that do not start with one. -/
def wholePart? (s : List Char) : Option (List Char × List Char) :=
  match spanDigits s with
  | ([], _) => none
  | ('0' :: _ :: _, _) => none
  | (digits, rest) => some (digits, rest)

/-- A point and the digits after it, if there is a point. -/
def fractionPart? : List Char → Option (Option (List Char) × List Char)
  | '.' :: s =>
    match spanDigits s with
    | ([], _) => none
    | (digits, rest) => some (some digits, rest)
  | s => some (none, s)

/-- An exponent, if there is one. -/
def exponentPart? : List Char → Option (Option Int × List Char)
  | [] => some (none, [])
  | c :: s =>
    if c = 'e' ∨ c = 'E' then
      let (negative, s) := takeSign s
      match spanDigits s with
      | ([], _) => none
      | (digits, rest) =>
        let n := digitsValue 0 digits
        some (some (if negative then -(n : Int) else n), rest)
    else some (none, c :: s)

/-- A number at the front of a text. -/
def number? (s : List Char) : Option (Number × List Char) := do
  let (negative, s) := match s with
    | '-' :: s => (true, s)
    | s => (false, s)
  let (whole, s) ← wholePart? s
  let (fraction, s) ← fractionPart? s
  let (exponent, s) ← exponentPart? s
  let digits := digitsValue 0 whole
  match fraction, exponent with
  | none, none =>
    if negative then
      if digits = 0 then return (.real ⟨true, 0, 0⟩, s) else return (.integer (-digits), s)
    else return (.integer digits, s)
  | fraction, exponent =>
    let places := fraction.getD []
    let decimal : Decimal :=
      ⟨negative, digitsValue digits places, exponent.getD 0 - places.length⟩
    return (.real decimal.trim, s)

/-! ### Strings -/

/-- The value of a hexadecimal digit of either case. -/
def hexValue? (c : Char) : Option Nat :=
  if c.isDigit then some (c.toNat - '0'.toNat)
  else if 'a' ≤ c ∧ c ≤ 'f' then some (c.toNat - 'a'.toNat + 10)
  else if 'A' ≤ c ∧ c ≤ 'F' then some (c.toNat - 'A'.toNat + 10)
  else none

/-- The value of four hexadecimal digits. -/
def hexValue4? (a b c d : Char) : Option Nat := do
  return ((← hexValue? a) * 16 + (← hexValue? b)) * 256 + (← hexValue? c) * 16 + (← hexValue? d)

/-- The character of a one-letter escape. -/
def escaped? : Char → Option Char
  | '"' => some '"'
  | '\\' => some '\\'
  | '/' => some '/'
  | 'b' => some '\x08'
  | 'f' => some '\x0c'
  | 'n' => some '\n'
  | 'r' => some '\r'
  | 't' => some '\t'
  | _ => none

/-- The inside of a string and its closing quote. The characters read so far are collected in
reverse; `half` is the first half of a pair of code units that was just read, and `sound` is false
once an escape has stood for half a character only. -/
def textBody? (half : Option Nat) (sound : Bool) (read : List Char) :
    List Char → Option (Bool × List Char × List Char)
  | [] => none
  | '"' :: rest => some (sound && half.isNone, read.reverse, rest)
  | '\\' :: 'u' :: a :: b :: c :: d :: rest =>
    match hexValue4? a b c d with
    | none => none
    | some unit =>
      if 0xD800 ≤ unit ∧ unit ≤ 0xDBFF then
        textBody? (some unit) (sound && half.isNone) read rest
      else if 0xDC00 ≤ unit ∧ unit ≤ 0xDFFF then
        match half with
        | some first =>
          let code := 0x10000 + (first - 0xD800) * 0x400 + (unit - 0xDC00)
          textBody? none sound (Char.ofNat code :: read) rest
        | none => textBody? none false read rest
      else textBody? none (sound && half.isNone) (Char.ofNat unit :: read) rest
  | '\\' :: c :: rest =>
    match escaped? c with
    | none => none
    | some c => textBody? none (sound && half.isNone) (c :: read) rest
  | c :: rest =>
    if c = '\\' ∨ c.toNat < 32 then none
    else textBody? none (sound && half.isNone) (c :: read) rest

/-- The rest of a string after its opening quote; no text if it is garbled. -/
def text? (s : List Char) : Option (Option String × List Char) :=
  (textBody? none true [] s).map fun (sound, read, rest) ↦
    (if sound then some (String.ofList read) else none, rest)

/-! ### Documents -/

/-- Lists and records within one another. -/
def maxNesting : Nat := 10000

mutual

/-- A document at the front of a text that starts with no blank. -/
def value? (fuel nesting : Nat) (s : List Char) : Option (Json × List Char) :=
  match fuel with
  | 0 => none
  | fuel + 1 =>
    match s with
    | 'n' :: rest => (dropWord? ['u', 'l', 'l'] rest).map (.null, ·)
    | 't' :: rest => (dropWord? ['r', 'u', 'e'] rest).map (.bool true, ·)
    | 'f' :: rest => (dropWord? ['a', 'l', 's', 'e'] rest).map (.bool false, ·)
    | '"' :: rest =>
      (text? rest).map fun (s, rest) ↦ (s.elim .garbled .text, rest)
    | '[' :: rest =>
      match nesting with
      | 0 => none
      | nesting + 1 =>
        match skipSpace rest with
        | ']' :: rest => some (.list [], rest)
        | rest => items? fuel nesting [] rest
    | '\x7b' :: rest =>
      match nesting with
      | 0 => none
      | nesting + 1 =>
        match skipSpace rest with
        | '\x7d' :: rest => some (.record [], rest)
        | rest => members? fuel nesting [] rest
    | s => (number? s).map fun (n, rest) ↦ (.number n, rest)

/-- The items of a list from the next one on, those before it collected in reverse. -/
def items? (fuel nesting : Nat) (read : List Json) (s : List Char) :
    Option (Json × List Char) :=
  match fuel with
  | 0 => none
  | fuel + 1 =>
    match value? fuel nesting s with
    | none => none
    | some (item, rest) =>
      match skipSpace rest with
      | ',' :: rest => items? fuel nesting (item :: read) (skipSpace rest)
      | ']' :: rest => some (.list (item :: read).reverse, rest)
      | _ => none

/-- The members of a record from the next one on, those before it collected in reverse. -/
def members? (fuel nesting : Nat) (read : List (String × Json)) (s : List Char) :
    Option (Json × List Char) :=
  match fuel with
  | 0 => none
  | fuel + 1 =>
    match s with
    | '"' :: rest =>
      match text? rest with
      | some (some name, rest) =>
        match skipSpace rest with
        | ':' :: rest =>
          match value? fuel nesting (skipSpace rest) with
          | none => none
          | some (value, rest) =>
            match skipSpace rest with
            | ',' :: rest => members? fuel nesting ((name, value) :: read) (skipSpace rest)
            | '\x7d' :: rest => some (.record ((name, value) :: read).reverse, rest)
            | _ => none
        | _ => none
      | _ => none
    | _ => none

end

/-- The document that a text holds, if it holds one and nothing else. -/
def parse? (s : List Char) : Option Json :=
  match value? (s.length + 1) maxNesting (skipSpace s) with
  | some (j, rest) => if (skipSpace rest).isEmpty then some j else none
  | none => none

end OutlierScoring.Json
