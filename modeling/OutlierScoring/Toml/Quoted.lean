/-!
# TOML strings

The four forms of a string: between single or triple quotes of either kind. Double quotes admit
escapes, single ones do not; triple quotes admit line ends. `Toml.readString?` reads any of them,
and `Toml.writeString` picks the plainest form that can hold a text:

* double quotes, if nothing in the text has to be escaped there;
* else single quotes, if there are neither single quotes nor line ends in the text;
* else triple double quotes, if there is no backslash and no three double quotes in a row;
* else triple single quotes, if there are no three single quotes in a row;
* else, and wherever there are control characters, double quotes with escapes.
-/

namespace OutlierScoring.Toml

/-- A character that may stand in a comment or a string: no control character but the tab. -/
def isPlain (c : Char) : Bool := c == '\t' || (0x20 ≤ c.toNat && c.toNat != 0x7F)

/-! ### Reading -/

/-- The character of a code, if there is one. -/
def charOfCode? (code : Nat) : Option Char :=
  if code.isValidChar then some (Char.ofNat code) else none

/-- The value of some hexadecimal digits of either case. -/
def hexCode? (digits : List Char) : Option Nat :=
  digits.foldlM (fun n c ↦
    if c.isDigit then some (16 * n + (c.toNat - '0'.toNat))
    else if 'a' ≤ c ∧ c ≤ 'f' then some (16 * n + (c.toNat - 'a'.toNat + 10))
    else if 'A' ≤ c ∧ c ≤ 'F' then some (16 * n + (c.toNat - 'A'.toNat + 10))
    else none) 0

/-- The character of an escape by hexadecimal digits. -/
def escapedCode? (digits : List Char) : Option Char := (hexCode? digits).bind charOfCode?

/-- The character of a one-letter escape. -/
def escapedLetter? : Char → Option Char
  | '"' => some '"'
  | '\\' => some '\\'
  | 'b' => some '\x08'
  | 'f' => some '\x0c'
  | 'n' => some '\n'
  | 'r' => some '\r'
  | 't' => some '\t'
  | _ => none

/-- The rest of a string in double quotes. The characters read so far are collected in reverse. -/
def basicBody? (read : List Char) : List Char → Option (String × List Char)
  | '"' :: rest => some (String.ofList read.reverse, rest)
  | '\\' :: 'u' :: a :: b :: c :: d :: rest =>
    match escapedCode? [a, b, c, d] with
    | some ch => basicBody? (ch :: read) rest
    | none => none
  | '\\' :: 'U' :: a :: b :: c :: d :: e :: f :: g :: h :: rest =>
    match escapedCode? [a, b, c, d, e, f, g, h] with
    | some ch => basicBody? (ch :: read) rest
    | none => none
  | '\\' :: c :: rest =>
    match escapedLetter? c with
    | some ch => basicBody? (ch :: read) rest
    | none => none
  | c :: rest => if isPlain c ∧ c ≠ '\\' then basicBody? (c :: read) rest else none
  | [] => none

/-- The rest of a string in single quotes. -/
def literalBody? (read : List Char) : List Char → Option (String × List Char)
  | '\'' :: rest => some (String.ofList read.reverse, rest)
  | c :: rest => if isPlain c then literalBody? (c :: read) rest else none
  | [] => none

/-- Where the reader of a string in triple double quotes is. A backslash at the end of a line stands
for no character, together with all blanks and line ends after it. -/
inductive LineFold where
  /-- Among characters that count. -/
  | none
  /-- After such a backslash, before the end of its line. -/
  | pending
  /-- After the end of that line. -/
  | skipping
deriving DecidableEq, Repr

/-- The line of the text after a backslash has nothing but blanks. -/
def restOfLineIsBlank : List Char → Bool
  | ' ' :: rest => restOfLineIsBlank rest
  | '\t' :: rest => restOfLineIsBlank rest
  | '\n' :: _ => true
  | '\r' :: '\n' :: _ => true
  | _ => false

/-- The rest of a string in triple double quotes. One or two quotes that do not belong to the
closing ones are part of the string, and a line ends with a line feed however it was written. -/
def multiBasicBody? (fold : LineFold) (read : List Char) :
    List Char → Option (String × List Char)
  | [] => .none
  | ' ' :: rest =>
    if fold = .none then multiBasicBody? .none (' ' :: read) rest
    else multiBasicBody? fold read rest
  | '\t' :: rest =>
    if fold = .none then multiBasicBody? .none ('\t' :: read) rest
    else multiBasicBody? fold read rest
  | '\n' :: rest =>
    if fold = .none then multiBasicBody? .none ('\n' :: read) rest
    else multiBasicBody? .skipping read rest
  | '\r' :: '\n' :: rest =>
    if fold = .none then multiBasicBody? .none ('\n' :: read) rest
    else multiBasicBody? .skipping read rest
  | '"' :: '"' :: '"' :: '"' :: '"' :: rest =>
    some (String.ofList ('"' :: '"' :: read).reverse, rest)
  | '"' :: '"' :: '"' :: '"' :: rest => some (String.ofList ('"' :: read).reverse, rest)
  | '"' :: '"' :: '"' :: rest => some (String.ofList read.reverse, rest)
  | '"' :: rest => multiBasicBody? .none ('"' :: read) rest
  | '\\' :: 'u' :: a :: b :: c :: d :: rest =>
    match escapedCode? [a, b, c, d] with
    | some ch => multiBasicBody? .none (ch :: read) rest
    | .none => .none
  | '\\' :: 'U' :: a :: b :: c :: d :: e :: f :: g :: h :: rest =>
    match escapedCode? [a, b, c, d, e, f, g, h] with
    | some ch => multiBasicBody? .none (ch :: read) rest
    | .none => .none
  | '\\' :: c :: rest =>
    if restOfLineIsBlank (c :: rest) then multiBasicBody? .pending read (c :: rest)
    else
      match escapedLetter? c with
      | some ch => multiBasicBody? .none (ch :: read) rest
      | .none => .none
  | c :: rest => if isPlain c ∧ c ≠ '\\' then multiBasicBody? .none (c :: read) rest else .none

/-- The rest of a string in triple single quotes. -/
def multiLiteralBody? (read : List Char) : List Char → Option (String × List Char)
  | '\'' :: '\'' :: '\'' :: '\'' :: '\'' :: rest =>
    some (String.ofList ('\'' :: '\'' :: read).reverse, rest)
  | '\'' :: '\'' :: '\'' :: '\'' :: rest => some (String.ofList ('\'' :: read).reverse, rest)
  | '\'' :: '\'' :: '\'' :: rest => some (String.ofList read.reverse, rest)
  | '\r' :: '\n' :: rest => multiLiteralBody? ('\n' :: read) rest
  | c :: rest =>
    if isPlain c ∨ c = '\n' then multiLiteralBody? (c :: read) rest else none
  | [] => none

/-- The text without a line end at its beginning. -/
def dropLineEnd : List Char → List Char
  | '\n' :: rest => rest
  | '\r' :: '\n' :: rest => rest
  | s => s

/-- A string of any form at the front of a text. A line end right after triple quotes does not
belong to the string. -/
def readString? : List Char → Option (String × List Char)
  | '"' :: '"' :: '"' :: rest => multiBasicBody? .none [] (dropLineEnd rest)
  | '"' :: rest => basicBody? [] rest
  | '\'' :: '\'' :: '\'' :: rest => multiLiteralBody? [] (dropLineEnd rest)
  | '\'' :: rest => literalBody? [] rest
  | _ => none

/-! ### Writing -/

/-- The length of the longest run of a character, given the length of the run that the text goes on
with and the longest one so far. -/
def longestRun (c : Char) (current longest : Nat) : List Char → Nat
  | [] => longest
  | x :: rest =>
    if x = c then longestRun c (current + 1) (max longest (current + 1)) rest
    else longestRun c 0 longest rest

/-- A character that only an escape can stand for. -/
def needsEscape (c : Char) : Bool :=
  (c.toNat < 0x20 && c != '\t' && c != '\n') || c.toNat == 0x7F

/-- An escape by four hexadecimal digits. -/
def writeCode (c : Char) : List Char :=
  let digits := (Nat.toDigits 16 c.toNat).map Char.toUpper
  '\\' :: 'u' :: (List.replicate (4 - digits.length) '0' ++ digits)

/-- The inside of a string in double quotes. Between triple quotes line ends are kept, and so are
quotes, as long as there are no more than two in a row; `run` of them have just been written. -/
def writeBasicBody (multi : Bool) (run : Nat) : List Char → List Char
  | [] => []
  | c :: rest =>
    match c with
    | '"' =>
      if run < (if multi then 2 else 0) then '"' :: writeBasicBody multi (run + 1) rest
      else '\\' :: '"' :: writeBasicBody multi 0 rest
    | '\\' => '\\' :: '\\' :: writeBasicBody multi 0 rest
    | '\n' => if multi then '\n' :: writeBasicBody multi 0 rest
      else '\\' :: 'n' :: writeBasicBody multi 0 rest
    | '\t' => '\\' :: 't' :: writeBasicBody multi 0 rest
    | '\r' => '\\' :: 'r' :: writeBasicBody multi 0 rest
    | '\x08' => '\\' :: 'b' :: writeBasicBody multi 0 rest
    | '\x0c' => '\\' :: 'f' :: writeBasicBody multi 0 rest
    | c =>
      if needsEscape c then writeCode c ++ writeBasicBody multi 0 rest
      else c :: writeBasicBody multi 0 rest

/-- The four forms of a string. -/
inductive StringForm where
  | basic
  | literal
  | multiBasic
  | multiLiteral
deriving DecidableEq, Repr

/-- The plainest form that can hold a text. -/
def StringForm.of (s : List Char) : StringForm :=
  let lines := s.contains '\n'
  let single := longestRun '\'' 0 0 s
  let double := longestRun '"' 0 0 s
  if s.any needsEscape then (if lines then .multiBasic else .basic)
  else if !s.contains '\\' && double = 0 && !lines then .basic
  else if single = 0 && !lines then .literal
  else if !s.contains '\\' && double ≤ 2 then .multiBasic
  else if single ≤ 2 then .multiLiteral
  else if lines then .multiBasic
  else .basic

/-- A text in quotes of the given form. A text with line ends starts on a line of its own. -/
def StringForm.write (s : List Char) : StringForm → List Char
  | basic => '"' :: (writeBasicBody false 0 s ++ ['"'])
  | literal => '\'' :: (s ++ ['\''])
  | multiBasic =>
    '"' :: '"' :: '"' :: ((if s.contains '\n' then ['\n'] else []) ++
      writeBasicBody true 0 s ++ ['"', '"', '"'])
  | multiLiteral =>
    '\'' :: '\'' :: '\'' :: ((if s.contains '\n' then ['\n'] else []) ++ s ++ ['\'', '\'', '\''])

/-- A text in quotes. -/
def writeString (text : String) : String :=
  String.ofList ((StringForm.of text.toList).write text.toList)

end OutlierScoring.Toml
