import OutlierScoring.Number.Scalar
import OutlierScoring.Random.Draws

/-!
# The keystream generator

The running supply of draws is the keystream of the ChaCha cipher with twelve rounds, under a key
that is expanded from a 64-bit seed. Words of the stream are used in their order, and a draw takes
as many as it needs, so that the stream alone decides all draws that follow a seed.

Indices are drawn by multiplication: the high half of `word · range` is uniform once the words whose
low half lies above a zone are rejected. `index` uses the zone that a shift gives, which rejects
more often than necessary; `evenIndex` uses the largest zone there is.
-/

namespace OutlierScoring

/-- A place in the keystream of a key: the block that is being used, how many of its words are used
up, and the number of the block after it. -/
structure Keystream where
  key : Vector UInt32 8
  block : Vector UInt32 16
  used : Nat
  next : UInt64

namespace Keystream

/-! ### The stream -/

/-- The word with its bits moved up cyclically. -/
def rotateLeft (x : UInt32) (n : UInt32) : UInt32 := (x <<< n) ||| (x >>> (32 - n))

/-- The quarter round on four words of a block. -/
def quarterRound (v : Vector UInt32 16) (a b c d : Fin 16) : Vector UInt32 16 :=
  let v := v.set a (v[a] + v[b])
  let v := v.set d (rotateLeft (v[d] ^^^ v[a]) 16)
  let v := v.set c (v[c] + v[d])
  let v := v.set b (rotateLeft (v[b] ^^^ v[c]) 12)
  let v := v.set a (v[a] + v[b])
  let v := v.set d (rotateLeft (v[d] ^^^ v[a]) 8)
  let v := v.set c (v[c] + v[d])
  v.set b (rotateLeft (v[b] ^^^ v[c]) 7)

/-- Quarter rounds on the four columns and then on the four diagonals. -/
def doubleRound (v : Vector UInt32 16) : Vector UInt32 16 :=
  let v := quarterRound v 0 4 8 12
  let v := quarterRound v 1 5 9 13
  let v := quarterRound v 2 6 10 14
  let v := quarterRound v 3 7 11 15
  let v := quarterRound v 0 5 10 15
  let v := quarterRound v 1 6 11 12
  let v := quarterRound v 2 7 8 13
  quarterRound v 3 4 9 14

/-- `n` double rounds. -/
def doubleRounds : Nat → Vector UInt32 16 → Vector UInt32 16
  | 0, v => v
  | n + 1, v => doubleRounds n (doubleRound v)

/-- The block before the rounds: four constants, the key, the block number and a zero nonce. -/
def start (key : Vector UInt32 8) (number : UInt64) : Vector UInt32 16 :=
  #v[0x61707865, 0x3320646e, 0x79622d32, 0x6b206574,
    key[0], key[1], key[2], key[3], key[4], key[5], key[6], key[7],
    number.toUInt32, (number >>> 32).toUInt32, 0, 0]

/-- A block of the keystream. -/
def blockAt (key : Vector UInt32 8) (number : UInt64) : Vector UInt32 16 :=
  let v := start key number
  (doubleRounds 6 v).zipWith (· + ·) v

/-- The keystream of a key, from its beginning. -/
def ofKey (key : Vector UInt32 8) : Keystream := ⟨key, blockAt key 0, 0, 1⟩

/-- The next word. -/
def word (s : Keystream) : UInt32 × Keystream :=
  if h : s.used < 16 then (s.block[s.used], { s with used := s.used + 1 })
  else
    let block := blockAt s.key s.next
    (block[0], { s with block, used := 1, next := s.next + 1 })

/-- The next two words as one of 64 bits, the first of them as its lower half. -/
def doubleWord (s : Keystream) : UInt64 × Keystream :=
  let (low, s) := s.word
  let (high, s) := s.word
  (low.toUInt64 ||| (high.toUInt64 <<< 32), s)

/-! ### Keys from seeds -/

/-- A step of the seed's linear congruence. -/
def stepSeed (state : UInt64) : UInt64 := state * 6364136223846793005 + 11634580027462260723

/-- The word that a state of the congruence stands for. -/
def seedWord (state : UInt64) : UInt32 :=
  let x := (((state >>> 18) ^^^ state) >>> 27).toUInt32
  let n := (state >>> 59).toUInt32
  if n = 0 then x else (x >>> n) ||| (x <<< (32 - n))

/-- The keystream of a seed. -/
def ofSeed (seed : UInt64) : Keystream :=
  let s0 := stepSeed seed
  let s1 := stepSeed s0
  let s2 := stepSeed s1
  let s3 := stepSeed s2
  let s4 := stepSeed s3
  let s5 := stepSeed s4
  let s6 := stepSeed s5
  let s7 := stepSeed s6
  ofKey #v[seedWord s0, seedWord s1, seedWord s2, seedWord s3,
    seedWord s4, seedWord s5, seedWord s6, seedWord s7]

/-! ### Draws -/

/-- The high half of `word · range` for the first word whose low half is inside the zone. A word
outside of it comes up less than every other time, so that the fuel never runs out in practice; then
the word at hand is used. -/
def scaledWord (range zone : UInt32) : Nat → Keystream → UInt32 × Keystream
  | 0, s => s.word
  | fuel + 1, s =>
    let (w, s) := s.word
    let product := w.toUInt64 * range.toUInt64
    if product.toUInt32 ≤ zone then ((product >>> 32).toUInt32, s)
    else scaledWord range zone fuel s

/-- Rejections in a row before a word is used anyway. -/
def patience : Nat := 256

/-- An index up to a bound below `2 ^ 32`, with the zone that fills the word by a shift. -/
def index (bound : Nat) (s : Keystream) : Fin (bound + 1) × Keystream :=
  let range := (bound + 1).toUInt32
  let zone := range <<< (31 - range.toNat.log2).toUInt32 - 1
  let (w, s) := if range = 0 then s.word else scaledWord range zone patience s
  (Fin.ofNat (bound + 1) w.toNat, s)

/-- An index up to a bound below `2 ^ 32`, with the largest zone whose size the range divides. -/
def evenIndex (bound : Nat) (s : Keystream) : Fin (bound + 1) × Keystream :=
  let range := bound + 1
  let zone := (UInt32.size - 1 - (UInt32.size - range) % range).toUInt32
  let (w, s) := scaledWord range.toUInt32 zone patience s
  (Fin.ofNat (bound + 1) w.toNat, s)

/-- A fraction with 53 bits. -/
def fraction {α : Type} [Scalar α] (s : Keystream) : α × Keystream :=
  let (w, s) := s.doubleWord
  (((w >>> 11).toNat : α) / ((2 * Binary64.hiddenBit : Nat) : α), s)

end Keystream

end OutlierScoring
