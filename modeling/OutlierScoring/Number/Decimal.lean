import OutlierScoring.Number.Binary64

/-!
# Decimal numbers and how they are written

A `Decimal` is a number in scientific form, exactly as its digits say. Which decimal stands for a
given float is decided elsewhere; this module only writes decimals down. What differs between the
places where the library writes numbers is a `Layout`:

* `Layout.plain`, in messages: always positional, whole numbers without a point;
* `Layout.document`, in stored documents and printed results: positional from `0.00001` up to
  `10 ^ 16`, with an exponent that always shows its sign outside of that range;
* `Layout.settings`, in configuration texts: always positional, whole numbers with `.0`.
-/

namespace OutlierScoring

/-- The number `±digits · 10 ^ exponent`. The sign of zero counts. -/
structure Decimal where
  negative : Bool
  digits : Nat
  exponent : Int
deriving DecidableEq, Repr, Inhabited

namespace Decimal

/-- How many digits a natural number has; zero has one. -/
def width (n : Nat) : Nat := (Nat.toDigits 10 n).length

/-- The same number with no trailing zero among its digits. -/
def trim (d : Decimal) : Decimal :=
  if d.digits = 0 then { d with exponent := 0 }
  else go d.digits d.exponent d.digits
where
  /-- Drops trailing zeros one at a time; there are fewer of them than the number is large. -/
  go (digits : Nat) (exponent : Int) : Nat → Decimal
    | 0 => { d with digits, exponent }
    | fuel + 1 =>
      if digits % 10 = 0 then go (digits / 10) (exponent + 1) fuel
      else { d with digits, exponent }

/-- The decisions that fix how a decimal is written. -/
structure Layout where
  /-- Written after the digits of a whole number. -/
  wholeSuffix : String
  /-- The orders of magnitude that are written positionally, the least and the greatest of them;
  everything is where there is no such range. An order of magnitude is the exponent of the leading
  digit. -/
  positional : Option (Int × Int)

namespace Layout

/-- Numbers in messages. -/
def plain : Layout := ⟨"", none⟩

/-- Numbers in stored documents and printed results. -/
def document : Layout := ⟨".0", some (-5, 15)⟩

/-- Numbers in configuration texts. -/
def settings : Layout := ⟨".0", none⟩

end Layout

/-- The exponent of the leading digit. -/
def magnitude (d : Decimal) : Int := d.exponent + (width d.digits : Int) - 1

/-- Digits before and after the point, with the zeros that the exponent asks for. -/
def writePositional (wholeSuffix : String) (d : Decimal) : String :=
  let digits := Nat.toDigits 10 d.digits
  if 0 ≤ d.exponent then
    String.ofList (digits ++ List.replicate d.exponent.toNat '0') ++ wholeSuffix
  else
    let places := d.exponent.natAbs
    let padded := List.replicate (places + 1 - digits.length) '0' ++ digits
    let whole := padded.length - places
    String.ofList (padded.take whole ++ '.' :: padded.drop whole)

/-- One digit, the rest of them after a point, and the exponent with its sign. -/
def writeScientific (d : Decimal) : String :=
  let digits := Nat.toDigits 10 d.digits
  let fraction := if digits.length ≤ 1 then [] else '.' :: digits.drop 1
  let exponent := d.magnitude
  let sign := if exponent < 0 then "e-" else "e+"
  String.ofList (digits.take 1 ++ fraction) ++ sign ++ toString exponent.natAbs

/-- The decimal in the given layout. Trailing zeros among the digits are not significant. -/
def write (layout : Layout) (d : Decimal) : String :=
  let d := d.trim
  let body :=
    match layout.positional with
    | none => d.writePositional layout.wholeSuffix
    | some (low, high) =>
      if d.digits = 0 ∨ (low ≤ d.magnitude ∧ d.magnitude ≤ high) then
        d.writePositional layout.wholeSuffix
      else d.writeScientific
  if d.negative then "-" ++ body else body

end Decimal

end OutlierScoring
