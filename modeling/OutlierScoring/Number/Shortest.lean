import OutlierScoring.Number.Decimal

/-!
# The shortest decimal of a float

Of all decimals that are nearer to a given float than to any other, `Shortest.decimal` picks one
with the fewest digits, and of those the nearest, a tie going to the even last digit.

The decimals with a given number of places form a grid. If any point of a grid lies in the interval
of numbers that round to the float, so does one of the two grid points around the float itself, so
only these two are tested. Grids are tried from coarse to fine, and all comparisons are made between
natural numbers over one common denominator.
-/

namespace OutlierScoring.Shortest

/-- The numbers that round to a float, scaled by a power of two: from `low` to `high` around
`middle`, all times `2 ^ scale`. The ends belong to it when `closed`. -/
structure Interval where
  low : Nat
  middle : Nat
  high : Nat
  scale : Int
  closed : Bool

/-- The numbers that round to `m · 2 ^ q`. Below a power of two floats are twice as dense, and the
ends of the interval are ties, which go to the even significand. -/
def Interval.around (m : Nat) (q : Int) : Interval :=
  let low := if m = Binary64.hiddenBit ∧ -1074 < q then 4 * m - 1 else 4 * m - 2
  ⟨low, 4 * m, 4 * m + 2, q - 2, m % 2 = 0⟩

/-- The multiple of `10 ^ k` that lies in the interval next to its middle, if there is one: the
nearer of the two, of two equally near ones the even one. -/
def Interval.nearest? (i : Interval) (k : Int) : Option Nat :=
  let up := Nat.pow 10 (-k).toNat <<< i.scale.toNat
  let unit := Nat.pow 10 k.toNat <<< (-i.scale).toNat
  let middle := i.middle * up
  let inside (n : Nat) : Bool :=
    if i.closed then i.low * up ≤ n * unit ∧ n * unit ≤ i.high * up
    else i.low * up < n * unit ∧ n * unit < i.high * up
  let below := middle / unit
  match inside below, inside (below + 1) with
  | true, true =>
    let rest := 2 * (middle - below * unit)
    some (if rest < unit then below else if unit < rest then below + 1 else below + below % 2)
  | true, false => some below
  | false, true => some (below + 1)
  | false, false => none

/-- The first hit on the grids `10 ^ k`, `10 ^ (k - 1)`, …; after `fuel` misses none. -/
def Interval.search (i : Interval) (k : Int) : Nat → Option (Nat × Int)
  | 0 => none
  | fuel + 1 =>
    match i.nearest? k with
    | some n => some (n, k)
    | none => i.search (k - 1) fuel

/-- The exact decimal value of `m · 2 ^ q`. -/
def exact (m : Nat) (q : Int) : Nat × Int :=
  if 0 ≤ q then (m <<< q.toNat, 0) else (m * Nat.pow 5 (-q).toNat, q)

/-- The shortest decimal of a finite float, without trailing zeros. The search starts one grid too
coarse and reaches seventeen digits, which always suffice; the exact value stands in where nothing
is found. -/
def decimal (x : Float) : Decimal :=
  let (m, q) := Binary64.split x
  if m = 0 then ⟨Binary64.isNegative x, 0, 0⟩
  else
    -- An estimate of the order of magnitude, at most one too small.
    let start := (m.log2 + q) * 30103 / 100000 + 1
    let (digits, exponent) := ((Interval.around m q).search start 20).getD (exact m q)
    Decimal.trim ⟨Binary64.isNegative x, digits, exponent⟩

end OutlierScoring.Shortest
