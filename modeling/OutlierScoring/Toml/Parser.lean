import OutlierScoring.Toml.Basic
import OutlierScoring.Toml.Quoted

/-!
# Reading TOML

`Toml.statements?` divides a text into statements, and `Toml.parse?` puts them together. The syntax
is that of TOML 1.0. Integers have 64 bits and floats are binary64; a float too large for that is
refused, a negative one becomes an infinity. Arrays and tables in braces may nest up to
`nestingLimit` levels, and keys may have as many parts.

The mutual functions below take a fuel that every one of them spends on at least one character, so
that the length of the text is always enough.
-/

namespace OutlierScoring.Toml

/-- A blank inside of a line. -/
def isSpace (c : Char) : Bool := c == ' ' || c == '\t'

/-- The text after the blanks at its front. -/
def skipSpace (s : List Char) : List Char := s.dropWhile isSpace

/-- The text after the character at its front, if it is the given one. -/
def dropChar? (c : Char) : List Char → Option (List Char)
  | x :: rest => if x = c then some rest else none
  | [] => none

/-- The text after the word at its front, if it is the given one. -/
def dropWord? (word s : List Char) : Option (List Char) :=
  match word, s with
  | [], s => some s
  | _ :: _, [] => none
  | w :: ws, c :: cs => if w = c then dropWord? ws cs else none

/-- The text after the end of a line at its front; the text may also end there. -/
def lineEnd? : List Char → Option (List Char)
  | [] => some []
  | '\n' :: rest => some rest
  | '\r' :: '\n' :: rest => some rest
  | _ => none

/-- The text after a comment at its front, if there is one. -/
def skipComment : List Char → List Char
  | '#' :: rest => rest.dropWhile isPlain
  | s => s

/-- The text after the end of a line, with blanks and a comment before it. -/
def restOfLine? (s : List Char) : Option (List Char) := lineEnd? (skipComment (skipSpace s))

/-- The text after blanks, line ends and comments. The fuel bounds the number of lines. -/
def skipLines : (fuel : Nat) → List Char → List Char
  | 0, s => s
  | fuel + 1, s =>
    match skipComment (skipSpace s) with
    | '\n' :: rest => skipLines fuel rest
    | '\r' :: '\n' :: rest => skipLines fuel rest
    | s => s

/-- Levels of arrays and tables in braces, and parts of a key. -/
def nestingLimit : Nat := 79

/-! ### Keys -/

/-- A character of a key without quotes. -/
def isBare (c : Char) : Bool := c.isAlphanum || c == '-' || c == '_'

/-- One part of a key. -/
def simpleKey? (s : List Char) : Option (String × List Char) :=
  match s with
  | '"' :: rest => basicBody? [] rest
  | '\'' :: rest => literalBody? [] rest
  | s =>
    match s.span isBare with
    | ([], _) => none
    | (name, rest) => some (String.ofList name, rest)

/-- A key with the blanks around its parts. -/
def keyParts? : (fuel : Nat) → List Char → Option (List String × List Char)
  | 0, _ => none
  | fuel + 1, s => do
    let (name, rest) ← simpleKey? (skipSpace s)
    match skipSpace rest with
    | '.' :: rest =>
      let (names, rest) ← keyParts? fuel rest
      return (name :: names, rest)
    | rest => return ([name], rest)

/-- A key as the path to its last part, and that part. -/
def key? (s : List Char) : Option ((List String × String) × List Char) := do
  let (names, rest) ← keyParts? nestingLimit s
  let key ← names.getLast?
  return ((names.dropLast, key), rest)

/-! ### Numbers -/

/-- Further digits, between which single underscores may stand. -/
def moreDigits? (isDigit : Char → Bool) (read : List Char) :
    List Char → Option (List Char × List Char)
  | '_' :: c :: rest => if isDigit c then moreDigits? isDigit (c :: read) rest else none
  | ['_'] => none
  | c :: rest =>
    if isDigit c then moreDigits? isDigit (c :: read) rest else some (read.reverse, c :: rest)
  | [] => some (read.reverse, [])

/-- Digits, between which single underscores may stand. -/
def digitRun? (isDigit : Char → Bool) : List Char → Option (List Char × List Char)
  | c :: rest => if isDigit c then moreDigits? isDigit [c] rest else none
  | [] => none

/-- The digits of a decimal integer: a single zero, or digits that do not start with one. -/
def wholeDigits? : List Char → Option (List Char × List Char)
  | '0' :: rest => some (['0'], rest)
  | s => digitRun? Char.isDigit s

/-- An integer, if it fits into 64 bits. -/
def boundedInteger? (n : Int) : Option Toml :=
  if isBounded n then some (.integer n) else none

/-- An integer of the given digits to a base, after the mark of the base. -/
def basedInteger? (base : Nat) (isDigit : Char → Bool) (s : List Char) :
    Option (Toml × List Char) := do
  let (digits, rest) ← digitRun? isDigit s
  let n ← digits.foldlM (fun n c ↦ (hexCode? [c]).map (base * n + ·)) 0
  return (← boundedInteger? n, rest)

/-- An exponent, if its mark stands at the front. -/
def exponent? : List Char → Option (Option Int × List Char)
  | [] => some (none, [])
  | c :: s =>
    if c = 'e' ∨ c = 'E' then do
      let (negative, s) := takeSign s
      let (digits, rest) ← digitRun? Char.isDigit s
      let n := digitsValue 0 digits
      return (some (if negative then -(n : Int) else n), rest)
    else some (none, c :: s)

/-- A point and the digits after it, if there is a point. -/
def fraction? : List Char → Option (Option (List Char) × List Char)
  | '.' :: s => do
    let (digits, rest) ← digitRun? Char.isDigit s
    return (some digits, rest)
  | s => some (none, s)

/-- A float, unless it is too large. -/
def boundedReal? (d : Decimal) : Option Toml :=
  if !d.negative && !(Binary64.ofDecimal d).isFinite then none else some (.real (.finite d))

/-- A decimal integer or a float. -/
def decimal? (s : List Char) : Option (Toml × List Char) := do
  let (negative, s) := takeSign s
  let (whole, s) ← wholeDigits? s
  let (fraction, s) ← fraction? s
  let (exponent, s) ← exponent? s
  let n := digitsValue 0 whole
  match fraction, exponent with
  | none, none => return (← boundedInteger? (if negative then -(n : Int) else n), s)
  | fraction, exponent =>
    let places := fraction.getD []
    let d : Decimal := ⟨negative, digitsValue n places, exponent.getD 0 - places.length⟩
    return (← boundedReal? d, s)

/-- An infinity or a NaN, either with a sign. -/
def special? (s : List Char) : Option (Toml × List Char) :=
  let (negative, s) := takeSign s
  match dropWord? ['i', 'n', 'f'] s, dropWord? ['n', 'a', 'n'] s with
  | some rest, _ => some (.real (.infinite negative), rest)
  | none, some rest => some (.real .nan, rest)
  | none, none => none

/-! ### Dates and times -/

/-- A number of exactly `width` digits from `low` to `high`. -/
def field? (width low high : Nat) (s : List Char) : Option (Nat × List Char) :=
  let digits := s.take width
  let n := digitsValue 0 digits
  if digits.length = width ∧ digits.all Char.isDigit ∧ low ≤ n ∧ n ≤ high then
    some (n, s.drop width)
  else none

/-- The number of days of a month. -/
def daysIn (year month : Nat) : Nat :=
  if month = 2 then
    if year % 4 = 0 ∧ (year % 100 ≠ 0 ∨ year % 400 = 0) then 29 else 28
  else if month = 4 ∨ month = 6 ∨ month = 9 ∨ month = 11 then 30
  else 31

/-- The text after a date. -/
def date? (s : List Char) : Option (List Char) := do
  let (year, s) ← field? 4 0 9999 s
  let s ← dropChar? '-' s
  let (month, s) ← field? 2 1 12 s
  let s ← dropChar? '-' s
  let (_, s) ← field? 2 1 (daysIn year month) s
  return s

/-- The text after a time of day. -/
def time? (s : List Char) : Option (List Char) := do
  let (_, s) ← field? 2 0 23 s
  let s ← dropChar? ':' s
  let (_, s) ← field? 2 0 59 s
  let s ← dropChar? ':' s
  let (_, s) ← field? 2 0 60 s
  match s with
  | '.' :: c :: rest => return if c.isDigit then rest.dropWhile Char.isDigit else s
  | s => return s

/-- The text after an offset, if there is one. -/
def offset? (s : List Char) : Option (List Char) :=
  match s with
  | 'Z' :: rest => some rest
  | 'z' :: rest => some rest
  | c :: rest =>
    if c = '+' ∨ c = '-' then do
      let (_, s) ← field? 2 0 23 rest
      let s ← dropChar? ':' s
      let (_, s) ← field? 2 0 59 s
      return s
    else some s
  | [] => some []

/-- The text after a date, a time, or both. -/
def moment? (s : List Char) : Option (List Char) :=
  match date? s with
  | none => time? s
  | some afterDate =>
    match afterDate with
    | c :: rest =>
      if c = 'T' ∨ c = 't' ∨ c = ' ' then
        match time? rest with
        | some afterTime => offset? afterTime
        | none => some afterDate
      else some afterDate
    | [] => some []

/-! ### Values -/

/-- A number, a date or a time. -/
def number? (s : List Char) : Option (Toml × List Char) :=
  match moment? s with
  | some rest => some (.moment, rest)
  | none =>
    match s with
    | '0' :: 'x' :: rest => basedInteger? 16 (fun c ↦ (hexCode? [c]).isSome) rest
    | '0' :: 'o' :: rest => basedInteger? 8 (fun c ↦ '0' ≤ c ∧ c ≤ '7') rest
    | '0' :: 'b' :: rest => basedInteger? 2 (fun c ↦ c = '0' ∨ c = '1') rest
    | s =>
      match special? s with
      | some result => some result
      | none => decimal? s

mutual

/-- A value at the front of a text, which starts with no blank. -/
def value? (fuel nesting : Nat) (s : List Char) : Option (Toml × List Char) :=
  match fuel with
  | 0 => none
  | fuel + 1 =>
    match s with
    | '"' :: _ => (readString? s).map fun (content, rest) ↦ (.text content, rest)
    | '\'' :: _ => (readString? s).map fun (content, rest) ↦ (.text content, rest)
    | '[' :: rest =>
      match nesting with
      | 0 => none
      | nesting + 1 => items? fuel nesting [] rest
    | '\x7b' :: rest =>
      match nesting with
      | 0 => none
      | nesting + 1 =>
        match skipSpace rest with
        | '\x7d' :: rest => some (.table .braces [], rest)
        | rest => entries? fuel nesting [] rest
    | 't' :: _ => (dropWord? ['t', 'r', 'u', 'e'] s).map (.bool true, ·)
    | 'f' :: _ => (dropWord? ['f', 'a', 'l', 's', 'e'] s).map (.bool false, ·)
    | s => number? s

/-- The items of an array from the next one on, those before it collected in reverse. There may be a
comma after the last one. -/
def items? (fuel nesting : Nat) (read : List Toml) (s : List Char) : Option (Toml × List Char) :=
  match fuel with
  | 0 => none
  | fuel + 1 =>
    match skipLines fuel s with
    | ']' :: rest => some (.list read.reverse, rest)
    | s =>
      match value? fuel nesting s with
      | none => none
      | some (item, rest) =>
        match skipLines fuel rest with
        | ',' :: rest => items? fuel nesting (item :: read) rest
        | ']' :: rest => some (.list (item :: read).reverse, rest)
        | _ => none

/-- The entries of a table in braces from the next one on. -/
def entries? (fuel nesting : Nat) (read : List (List String × String × Toml)) (s : List Char) :
    Option (Toml × List Char) :=
  match fuel with
  | 0 => none
  | fuel + 1 =>
    match key? s with
    | some ((path, key), '=' :: rest) =>
      match value? fuel nesting (skipSpace rest) with
      | none => none
      | some (value, rest) =>
        let read := (path, key, value) :: read
        match skipSpace rest with
        | ',' :: rest => entries? fuel nesting read rest
        | '\x7d' :: rest => (braces? read.reverse).map (·, rest)
        | _ => none
    | _ => none

end

/-! ### Documents -/

/-- A key, an equals sign and a value. -/
def entry? (s : List Char) : Option (Statement × List Char) := do
  let ((path, key), s) ← key? s
  let s ← dropChar? '=' s
  let (value, s) ← value? (s.length + 1) nestingLimit (skipSpace s)
  return (.entry path key value, s)

/-- A header in single or double brackets. -/
def header? : List Char → Option (Statement × List Char)
  | '[' :: '[' :: s => do
    let ((path, key), s) ← key? s
    let s ← dropChar? ']' s
    return (.arrayHeader path key, ← dropChar? ']' s)
  | '[' :: s => do
    let ((path, key), s) ← key? s
    return (.header path key, ← dropChar? ']' s)
  | _ => none

/-- The statements of a text, those before it collected in reverse. Every statement has a line of
its own; lines without one hold a comment or nothing. -/
def statementsFrom? (read : List Statement) : (fuel : Nat) → List Char → Option (List Statement)
  | 0, _ => none
  | fuel + 1, s =>
    match skipSpace s with
    | [] => some read.reverse
    | '#' :: rest => (restOfLine? ('#' :: rest)).bind (statementsFrom? read fuel)
    | '\n' :: rest => statementsFrom? read fuel rest
    | '\r' :: '\n' :: rest => statementsFrom? read fuel rest
    | '[' :: rest =>
      match header? ('[' :: rest) with
      | some (statement, rest) =>
        (restOfLine? rest).bind (statementsFrom? (statement :: read) fuel)
      | none => none
    | s =>
      match entry? s with
      | some (statement, rest) =>
        (restOfLine? rest).bind (statementsFrom? (statement :: read) fuel)
      | none => none

/-- The statements of a text. There may be a byte order mark in front of it. -/
def statements? (text : String) : Option (List Statement) :=
  let s := match text.toList with
    | '\uFEFF' :: rest => rest
    | s => s
  statementsFrom? [] (s.length + 1) s

/-- The entries of the document that a text holds. -/
def parse? (text : String) : Option Entries := (statements? text).bind assemble?

end OutlierScoring.Toml
