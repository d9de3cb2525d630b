/-!
# Exact values of binary64 floats

A finite float is `±m · 2 ^ q` for natural `m` and integer `q`. This module reads that form off the
bits (`Binary64.split`) and makes a float of it again (`Binary64.assemble`). What is not of that
form is rounded to the nearest float first, whether it is a form with more digits
(`Binary64.round`) or a fraction (`Binary64.roundFraction`). The one operation of the scaling
arithmetic that rounds only once although it has two steps is `Binary64.mulAdd`.

Everything here is integer arithmetic: the value between `split` and `round` is exact.
-/

namespace OutlierScoring.Binary64

/-- The weight of the leading bit of a normal significand, which is not among the stored bits.
Normal significands lie between it and its double. -/
def hiddenBit : Nat := 1 <<< 52

/-- The significand and the exponent of a finite float, its sign left aside: `|x| = m · 2 ^ q`.
Subnormal floats share the exponent `-1074` of the smallest normal ones. -/
def split (x : Float) : Nat × Int :=
  let bits := x.toBits
  let fraction := (bits &&& 0xFFFFFFFFFFFFF).toNat
  let biased := ((bits >>> 52) &&& 0x7FF).toNat
  if biased = 0 then (fraction, -1074) else (hiddenBit + fraction, (biased : Int) - 1075)

/-- The sign bit, set for `-0.0` too. -/
def isNegative (x : Float) : Bool :=
  x.toBits >>> 63 == 1

/-- The signed significand of a finite float, with its exponent: `x = m · 2 ^ q`. -/
def signedSplit (x : Float) : Int × Int :=
  let (m, q) := split x
  (if isNegative x then -(m : Int) else m, q)

/-- `m / 2 ^ shift`, to the nearest natural number, a half going to the even neighbour. -/
def shiftRightEven (m shift : Nat) : Nat :=
  let floor := m >>> shift
  let rest := m - floor <<< shift
  let half := 1 <<< shift
  if 2 * rest < half then floor
  else if half < 2 * rest then floor + 1
  else floor + floor % 2

/-- `n / d`, to the nearest natural number, a half going to the even neighbour. -/
def divideEven (n d : Nat) : Nat :=
  let floor := n / d
  let rest := 2 * (n % d)
  if rest < d then floor
  else if d < rest then floor + 1
  else floor + floor % 2

/-- The float `±m · 2 ^ q`, where `m` has at most as many digits as a significand, or one more after
rounding up. What is too large for a float becomes an infinity. -/
def assemble (negative : Bool) (m : Nat) (q : Int) : Float :=
  let sign : UInt64 := if negative then 0x8000000000000000 else 0
  -- Rounding up may carry into one more binary digit.
  let (m, q) := if m = 2 * hiddenBit then (hiddenBit, q + 1) else (m, q)
  let magnitude :=
    if m < hiddenBit then m
    else if 971 < q then 0x7FF <<< 52
    else (q + 1075).toNat <<< 52 + (m - hiddenBit)
  .ofBits (sign ||| magnitude.toUInt64)

/-- The float nearest to `±m · 2 ^ q`, a tie going to the even significand. -/
def round (negative : Bool) (m : Nat) (q : Int) : Float :=
  let target := max (q + m.log2 - 52) (-1074)
  let shifted :=
    if q ≤ target then shiftRightEven m (target - q).toNat else m <<< (q - target).toNat
  assemble negative shifted target

/-- The order of magnitude of `n / d`: it lies between `2 ^ order` and the double of that. -/
def order (n d : Nat) : Int :=
  let estimate := (n.log2 : Int) - d.log2
  if n <<< (-estimate).toNat < d <<< estimate.toNat then estimate - 1 else estimate

/-- The float nearest to `±n / d`, a tie going to the even significand. -/
def roundFraction (negative : Bool) (n d : Nat) : Float :=
  let target := max (order n d - 52) (-1074)
  assemble negative (divideEven (n <<< (-target).toNat) (d <<< target.toNat)) target

/-- `a · b + c` rounded once. Where one of the three is not finite there is nothing to round, and
the two-step form is used. -/
def mulAdd (a b c : Float) : Float :=
  if a.isFinite && b.isFinite && c.isFinite then
    let (ma, qa) := signedSplit a
    let (mb, qb) := signedSplit b
    let (mc, qc) := signedSplit c
    let q := min (qa + qb) qc
    let total := (ma * mb) <<< (qa + qb - q).toNat + mc <<< (qc - q).toNat
    round (total < 0) total.natAbs q
  else a * b + c

end OutlierScoring.Binary64
