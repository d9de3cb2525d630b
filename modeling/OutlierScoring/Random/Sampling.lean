import OutlierScoring.Random.Keystream

/-!
# Samples of distinct positions

Three ways to draw a sample, of which `Keystream.sample` takes the one that is cheapest for the size
of the sample and of the whole:

* `sampleInPlace` exchanges the first positions of the whole list with random later ones;
* `sampleGrowing` goes through the last positions and adds for each a random one up to it, or the
  position itself if that one is taken;
* `sampleRejecting` draws until enough different positions have come up.

All three give the positions in a random order.
-/

namespace OutlierScoring.Keystream

/-- Exchanges position `i` with a random one from `i` on, for the next `count` positions. -/
def exchange {length : Nat} : (count i : Nat) → Vector (Fin length) length → Keystream →
    Vector (Fin length) length × Keystream
  | 0, _, items, s => (items, s)
  | count + 1, i, items, s =>
    if h : i < length then
      let (j, s) := s.index (length - 1 - i)
      exchange count (i + 1) (items.swap i (i + j) h (by omega)) s
    else (items, s)

/-- The first positions after random exchanges. -/
def sampleInPlace (length amount : Nat) (s : Keystream) : List (Fin length) × Keystream :=
  let (items, s) := exchange amount 0 (Vector.ofFn id) s
  (items.toList.take amount, s)

/-- Puts `last` in front of `drawn` where that is taken, else `drawn` at the end. -/
def insertBefore {length : Nat} (last drawn : Fin length) : List (Fin length) → List (Fin length)
  | [] => [drawn]
  | x :: xs => if x = drawn then last :: x :: xs else x :: insertBefore last drawn xs

/-- Puts `last` at the end where `drawn` is taken, else `drawn`. -/
def insertLast {length : Nat} (last drawn : Fin length) (taken : List (Fin length)) :
    List (Fin length) :=
  taken ++ [if taken.contains drawn then last else drawn]

/-- Adds one position for each of the last `count` ones. -/
def growSample {length : Nat} (insert : Fin length → Fin length → List (Fin length) →
    List (Fin length)) : (count : Nat) → count ≤ length → List (Fin length) → Keystream →
    List (Fin length) × Keystream
  | 0, _, taken, s => (taken, s)
  | count + 1, h, taken, s =>
    let (drawn, s) := s.index (length - (count + 1))
    growSample insert count (by omega)
      (insert ⟨length - (count + 1), by omega⟩ ⟨drawn, by omega⟩ taken) s

/-- The draws without sampling, for reordering a sample. -/
def indexDraws : Draws Keystream Unit where
  index := index
  fraction s := ((), s)
  sample _ _ s := ([], s)

/-- A sample that grows by one position at a time. Small samples are put in a random order on the
way, larger ones at the end. -/
def sampleGrowing (length amount : Nat) (s : Keystream) : List (Fin length) × Keystream :=
  if amount < 50 then growSample insertBefore (min amount length) (by omega) [] s
  else
    let (taken, s) := growSample insertLast (min amount length) (by omega) [] s
    indexDraws.shuffle taken s

/-- Draws until `missing` more positions have come up that are not yet marked. When the draws run
out, the first unmarked positions fill the sample up. -/
def drawDistinct {length : Nat} : (fuel missing : Nat) → (marked : Vector Bool length) →
    List (Fin length) → Keystream → List (Fin length) × Keystream
  | _, 0, _, taken, s => (taken.reverse, s)
  | 0, missing, marked, taken, s =>
    (taken.reverse ++ ((List.finRange length).filter fun i ↦ !marked[i]).take missing, s)
  | fuel + 1, missing + 1, marked, taken, s =>
    if h : 0 < length then
      let (i, s) := s.evenIndex (length - 1)
      let i : Fin length := ⟨i, by omega⟩
      if marked[i] then drawDistinct fuel (missing + 1) marked taken s
      else drawDistinct fuel missing (marked.set i true) (i :: taken) s
    else (taken.reverse, s)

/-- A sample by drawing again whatever has come up before. -/
def sampleRejecting (length amount : Nat) (s : Keystream) : List (Fin length) × Keystream :=
  drawDistinct (64 * amount + 64) (min amount length) (Vector.replicate length false) [] s

/-- The length below which a sample of the given amount is drawn in place, in single precision. -/
def inPlaceBelow (length amount : Nat) : Float32 :=
  let large := 500000 ≤ length
  let a := Float32.ofNat amount
  if amount < 163 then
    if large then (70.0 / 9.0 + 8.0 / 45.0 * a) * a else (10.0 + 1.6 * a) * a
  else (if large then 330.0 / 9.0 else 270.0) * a

/-- Positions of a sample, `amount` of `length` many, distinct and in a random order. -/
def sample (length amount : Nat) (s : Keystream) : List (Fin length) × Keystream :=
  let inPlace := Float32.ofNat length < inPlaceBelow length amount
  if amount < 163 then
    if 11 < amount ∧ inPlace then sampleInPlace length amount s else sampleGrowing length amount s
  else if inPlace then sampleInPlace length amount s
  else sampleRejecting length amount s

/-- The keystream as a supply of draws. -/
def draws {α : Type} [Scalar α] : Draws Keystream α where
  index := index
  fraction := fraction
  sample := sample

/-- The keystreams of all seeds. -/
def chance {α : Type} [Scalar α] : Chance Keystream α where
  draws := draws
  start := ofSeed

end OutlierScoring.Keystream
