import OutlierScoring.Json.Form
import OutlierScoring.Text.Blank
import OutlierScoring.Time.Calendar

/-!
# Points in time

An `Instant` is a point in universal time, as precise as a nanosecond. A minute can have a
sixty-first second. Instants are written in the form of RFC 3339, with the fewest of 0, 3, 6 or 9
decimals that lose nothing. They are read in a laxer form, with any offset from universal time:

* numbers may have fewer digits than usual, and blanks in front of them;
* years may have a sign, and then any number of digits;
* date and time may be separated by a blank, and the offset may be `UTC` in any case;
* decimals after the ninth are dropped.
-/

namespace OutlierScoring.Time

/-- A point in universal time. -/
structure Instant where
  /-- Minutes since the beginning of the first of March of the year zero. -/
  minutes : Int
  /-- Seconds of the minute, at most sixty. -/
  seconds : Nat
  nanoseconds : Nat
deriving DecidableEq, Repr, Inhabited

namespace Instant

/-! ### Reading -/

/-- The first and the last year that are in range. -/
def firstYear : Int := -262143

@[inherit_doc firstYear]
def lastYear : Int := 262142

/-- A number of one to `width` digits from `low` to `high`, perhaps after blanks. -/
def number? (width low high : Nat) (s : List Char) : Option (Nat × List Char) :=
  let s := Text.dropBlanks s
  let digits := (s.take width).takeWhile Char.isDigit
  let n := digitsValue 0 digits
  if digits.isEmpty ∨ n < low ∨ high < n then none else some (n, s.drop digits.length)

/-- A year: at most four digits, or a sign and any number of them. -/
def year? (s : List Char) : Option (Int × List Char) :=
  match Text.dropBlanks s with
  | '-' :: rest =>
    match spanDigits rest with
    | ([], _) => none
    | (digits, rest) => some (-(digitsValue 0 digits : Int), rest)
  | '+' :: rest =>
    match spanDigits rest with
    | ([], _) => none
    | (digits, rest) => some (digitsValue 0 digits, rest)
  | s => (number? 4 0 9999 s).map fun (n, rest) ↦ (n, rest)

/-- The text after blanks and the given character. -/
def mark? (c : Char) (s : List Char) : Option (List Char) :=
  match Text.dropBlanks s with
  | x :: rest => if x = c then some rest else none
  | [] => none

/-- A date that is in the calendar and in range. -/
def date? (s : List Char) : Option (Date × List Char) := do
  let (year, s) ← year? s
  let s ← mark? '-' s
  let (month, s) ← number? 2 1 12 s
  let s ← mark? '-' s
  let (day, s) ← number? 2 1 31 s
  let date : Date := ⟨year, month, day⟩
  if date.isValid && firstYear ≤ year && year ≤ lastYear then return (date, s) else none

/-- The text after the mark between a date and a time. -/
def separator? : List Char → Option (List Char)
  | 'T' :: rest => some rest
  | 't' :: rest => some rest
  | ' ' :: rest => some rest
  | _ => none

/-- Decimals of a second, in nanoseconds; none at all where there is no point. -/
def decimals? : List Char → Option (Nat × List Char)
  | '.' :: s =>
    match spanDigits s with
    | ([], _) => none
    | (digits, rest) => some (digitsValue 0 ((digits ++ List.replicate 9 '0').take 9), rest)
  | s => some (0, s)

/-- Two digits at the front of a text. -/
def twoDigits? : List Char → Option (Nat × List Char)
  | a :: b :: rest => if a.isDigit ∧ b.isDigit then some (digitsValue 0 [a, b], rest) else none
  | _ => none

/-- The sign of an offset; a minus may also be the mathematical one. -/
def offsetSign? : List Char → Option (Bool × List Char)
  | '+' :: rest => some (false, rest)
  | '-' :: rest => some (true, rest)
  | '\u2212' :: rest => some (true, rest)
  | _ => none

/-- An offset from universal time in minutes, less than a day. -/
def offset? (s : List Char) : Option (Int × List Char) :=
  match s with
  | 'Z' :: rest => some (0, rest)
  | 'z' :: rest => some (0, rest)
  | s =>
    if (s.take 3).map Char.toUpper = ['U', 'T', 'C'] then some (0, s.drop 3)
    else do
      let (negative, s) ← offsetSign? s
      let (hours, s) ← twoDigits? s
      let (minutes, s) ← twoDigits? (s.dropWhile fun c ↦ c == ':' || Text.isBlank c)
      if 59 < minutes ∨ 23 < hours then none
      else
        let offset : Int := 60 * hours + minutes
        return (if negative then -offset else offset, s)

/-- The instant that a text describes. -/
def ofText? (text : String) : Option Instant := do
  let (date, s) ← date? text.toList
  let s ← separator? s
  let (hour, s) ← number? 2 0 23 s
  let s ← mark? ':' s
  let (minute, s) ← number? 2 0 59 s
  let s ← mark? ':' s
  let (seconds, s) ← number? 2 0 60 s
  let (nanoseconds, s) ← decimals? s
  let (offset, s) ← offset? (Text.dropBlanks s)
  let minutes := date.toDays * 1440 + 60 * hour + minute - offset
  let year := (Date.ofDays (minutes / 1440)).year
  if (Text.dropBlanks s).isEmpty && firstYear ≤ year && year ≤ lastYear then
    return ⟨minutes, seconds, nanoseconds⟩
  else none

/-! ### Writing -/

/-- A natural number with zeros in front up to a width. -/
def padded (width n : Nat) : String :=
  let digits := Nat.toDigits 10 n
  String.ofList (List.replicate (width - digits.length) '0' ++ digits)

/-- A year; one that does not have four digits has a sign. -/
def writeYear (year : Int) : String :=
  if 0 ≤ year ∧ year ≤ 9999 then padded 4 year.toNat
  else (if year < 0 then "-" else "+") ++ padded 4 year.natAbs

/-- A point and the decimals of a second, as few groups of three as lose nothing. -/
def writeDecimals (nanoseconds : Nat) : String :=
  if nanoseconds = 0 then ""
  else if nanoseconds % 1000000 = 0 then "." ++ padded 3 (nanoseconds / 1000000)
  else if nanoseconds % 1000 = 0 then "." ++ padded 6 (nanoseconds / 1000)
  else "." ++ padded 9 nanoseconds

/-- The text of an instant. -/
def toText (t : Instant) : String :=
  let date := Date.ofDays (t.minutes / 1440)
  let minute := (t.minutes % 1440).toNat
  writeYear date.year ++ "-" ++ padded 2 date.month ++ "-" ++ padded 2 date.day ++ "T" ++
    padded 2 (minute / 60) ++ ":" ++ padded 2 (minute % 60) ++ ":" ++ padded 2 t.seconds ++
    writeDecimals t.nanoseconds ++ "Z"

/-- The instant that is so many seconds and nanoseconds after the beginning of the year 1970. -/
def ofUnix (seconds nanoseconds : Nat) : Instant :=
  let start := Date.toDays ⟨1970, 1, 1⟩ * 1440
  ⟨start + (seconds / 60 : Nat), seconds % 60, nanoseconds⟩

end Instant

instance : Json.Form Instant where
  toJson t := .text t.toText
  ofJson? _ j := (Json.string? j).bind Instant.ofText?

end OutlierScoring.Time
