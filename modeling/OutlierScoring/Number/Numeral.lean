import OutlierScoring.Number.Scalar
import OutlierScoring.Number.Shortest

/-!
# Numbers as text

`Numeral` ties a scalar type to its decimal texts: `view` says which decimal stands for a number,
`ofDecimal` which number a decimal stands for. The law between the two, that `ofDecimal` undoes
`view` on finite numbers, is not part of the class.

The module also holds the free forms in which people and tables write numbers, for reals
(`Numeral.read?`) and for naturals of bounded size (`readBounded?`).
-/

namespace OutlierScoring

/-- What is written for a number. -/
inductive NumberView where
  | nan
  | infinite (negative : Bool)
  | finite (decimal : Decimal)
deriving DecidableEq, Repr

/-- Numbers that have a decimal text. -/
class Numeral (α : Type) where
  /-- The text form of a number. -/
  view : α → NumberView
  /-- The number nearest to a decimal; an infinity where it is out of range. -/
  ofDecimal : Decimal → α
  nan : α
  /-- The infinity of the given sign. -/
  infinite (negative : Bool) : α

/-- The number of a text form. -/
def Numeral.ofView {α : Type} [Numeral α] : NumberView → α
  | .nan => nan
  | .infinite negative => infinite negative
  | .finite d => ofDecimal d

namespace NumberView

/-- The text of a number in a message. -/
def message : NumberView → String
  | nan => "NaN"
  | infinite negative => if negative then "-inf" else "inf"
  | finite d => d.write .plain

/-- The text of a number in a configuration. -/
def settings : NumberView → String
  | nan => "nan"
  | infinite negative => if negative then "-inf" else "inf"
  | finite d => d.write .settings

end NumberView

/-- The float nearest to a decimal, a tie going to the even significand. Exponents far out of range
are decided without computing the power of ten. -/
def Binary64.ofDecimal (d : Decimal) : Float :=
  if d.digits = 0 ∨ d.magnitude < -400 then assemble d.negative 0 0
  else if 400 < d.magnitude then assemble d.negative hiddenBit 972
  else roundFraction d.negative (d.digits * Nat.pow 10 d.exponent.toNat)
    (Nat.pow 10 (-d.exponent).toNat)

instance : Numeral Float where
  view x :=
    if x.isNaN then .nan
    else if x.isInf then .infinite (Binary64.isNegative x)
    else .finite (Shortest.decimal x)
  ofDecimal := Binary64.ofDecimal
  nan := 0.0 / 0.0
  infinite negative := if negative then -1.0 / 0.0 else 1.0 / 0.0

/-- The digits at the front of a text and what follows them. -/
def spanDigits (s : List Char) : List Char × List Char := s.span Char.isDigit

/-- The value of a list of digits, read from the left after `start`. -/
def digitsValue (start : Nat) (digits : List Char) : Nat := Nat.ofDigitChars 10 digits start

@[simp] theorem digitsValue_toDigits (n : Nat) : digitsValue 0 (Nat.toDigits 10 n) = n :=
  Nat.ofDigitChars_ten_toDigits

theorem digitsValue_append (start : Nat) (a b : List Char) :
    digitsValue start (a ++ b) = digitsValue (digitsValue start a) b :=
  Nat.ofDigitChars_append start

/-- The sign at the front of a text, `true` for a minus, and what follows it. -/
def takeSign : List Char → Bool × List Char
  | '-' :: rest => (true, rest)
  | '+' :: rest => (false, rest)
  | s => (false, s)

/-- An exponent mark with its integer, or nothing at all, up to the end of the text. -/
def readExponent? : List Char → Option Int
  | [] => some 0
  | c :: rest =>
    if c = 'e' ∨ c = 'E' then
      let (negative, rest) := takeSign rest
      match spanDigits rest with
      | (digits@(_ :: _), []) =>
        let n := digitsValue 0 digits
        some (if negative then -(n : Int) else n)
      | _ => none
    else none

/-- A decimal in free form: digits with an optional point, which may stand first or last, and an
optional exponent. -/
def readDecimal? (negative : Bool) (s : List Char) : Option Decimal :=
  let (whole, rest) := spanDigits s
  let (fraction, rest) :=
    match rest with
    | '.' :: rest => spanDigits rest
    | rest => ([], rest)
  if whole.isEmpty ∧ fraction.isEmpty then none
  else do
    let exponent ← readExponent? rest
    return ⟨negative, digitsValue (digitsValue 0 whole) fraction, exponent - fraction.length⟩

/-- A number in free form: an optional sign, then a decimal, or `inf`, `infinity` or `nan` in any
case. Digits are the ASCII digits, and nothing may stand around the number. -/
def Numeral.read? {α : Type} [Numeral α] (text : String) : Option α :=
  let (negative, rest) := takeSign text.toList
  match String.ofList (rest.map Char.toLower) with
  | "inf" => some (infinite negative)
  | "infinity" => some (infinite negative)
  | "nan" => some nan
  | _ => (readDecimal? negative rest).map ofDecimal

/-- A natural number below `2 ^ 64` in free form: an optional plus sign and digits. -/
def readBounded? (text : String) : Option Nat :=
  let digits := match text.toList with
    | '+' :: rest => rest
    | s => s
  if digits.isEmpty ∨ !digits.all Char.isDigit then none
  else
    let n := digitsValue 0 digits
    if n < UInt64.size then some n else none

end OutlierScoring
