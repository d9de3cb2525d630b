import OutlierScoring.Number.Binary64

/-!
# Scalars

The arithmetic in which scaling, tree building, quantiles and scores are written. Every definition
of this library that computes is stated for an arbitrary `Scalar`, for two reasons:

* the running instance is `Float`, with its rounding, its infinities and its NaN;
* a law that only holds of exact numbers needs a reading of the same definitions in an ordered
  field, which is another instance.

The class therefore lists operations and no laws. The orders `<` and `≤` are separate because
neither holds of a NaN.
-/

namespace OutlierScoring

/-- Numbers with the operations that the scoring pipeline uses. -/
class Scalar (α : Type) extends Zero α, One α, NatCast α, OfScientific α, Add α, Sub α, Mul α,
    Div α, Neg α, LT α, LE α where
  decidableLT : DecidableLT α
  decidableLE : DecidableLE α
  /-- `mulAdd a b c` is `a · b + c`, rounded once where numbers are rounded. -/
  mulAdd : α → α → α → α
  /-- The square root. -/
  sqrt : α → α
  /-- The natural logarithm. -/
  log : α → α
  /-- The power of two with the given exponent. -/
  exp2 : α → α
  /-- The largest natural number that is not above the given number, which is not negative. -/
  floor : α → Nat
  /-- The least natural number that is not below the given number, which is not negative. -/
  ceil : α → Nat
  /-- Neither an infinity nor a NaN. -/
  isFinite : α → Bool
  /-- Not a number at all. -/
  isNaN : α → Bool
  /-- Above every finite number, where there is such a thing. -/
  infinity : α

namespace Scalar

variable {α : Type} [Scalar α]

instance : DecidableLT α := decidableLT

instance : DecidableLE α := decidableLE

/-- The number two. -/
def two : α := ((2 : Nat) : α)

/-- The distance from `1` to the next binary64 float, `2 ^ -52`. Deviations below it are noise. -/
def epsilon : α := 1 / (Binary64.hiddenBit : α)

/-- The sum of a list, added up from the left. -/
def sum (xs : List α) : α := xs.foldl (· + ·) 0

@[simp] theorem sum_nil : sum ([] : List α) = 0 := rfl

theorem sum_concat (xs : List α) (x : α) : sum (xs ++ [x]) = sum xs + x := by
  simp [sum]

/-- The lesser of two numbers, the first of two equal ones. -/
def lesser (a b : α) : α := if b < a then b else a

/-- The greater of two numbers, the first of two equal ones. -/
def greater (a b : α) : α := if a < b then b else a

/-- The greatest entry that is a number; below everything if there is none. -/
def greatest (xs : List α) : α :=
  match xs.filter (!isNaN ·) with
  | [] => -infinity
  | y :: ys => ys.foldl greater y

/-- The least entry that is a number; above everything if there is none. -/
def least (xs : List α) : α :=
  match xs.filter (!isNaN ·) with
  | [] => infinity
  | y :: ys => ys.foldl lesser y

end Scalar

/-- Floats are rounded after every operation, `mulAdd` after both of its steps at once. Truncation
saturates, and sends a NaN to `0`. -/
instance : Scalar Float where
  zero := 0.0
  one := 1.0
  natCast := Float.ofNat
  decidableLT := inferInstance
  decidableLE := inferInstance
  mulAdd := Binary64.mulAdd
  sqrt := Float.sqrt
  log := Float.log
  exp2 := Float.exp2
  floor x := x.toUInt64.toNat
  ceil x :=
    let floor := x.toUInt64.toNat
    if Float.ofNat floor < x then floor + 1 else floor
  isFinite := Float.isFinite
  isNaN := Float.isNaN
  infinity := 1.0 / 0.0

end OutlierScoring
