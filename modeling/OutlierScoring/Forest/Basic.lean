import OutlierScoring.Forest.Quantile
import OutlierScoring.Forest.Tree
import OutlierScoring.Model

/-!
# Isolation forests

A forest is a number of isolation trees, each grown over its own random sample of the rows. The
score of a row is `-2 ^ (-l / c)`, where `l` is the mean length of its ways down and `c` the length
that is expected for a sample: it is close to `-1` for rows that are separated early. The offset is
the quantile of the training scores at the expected fraction of outliers.

Every tree has draws of its own, started from a seed of its own, so that trees do not depend on the
order in which they are grown.
-/

namespace OutlierScoring

/-- What a forest is grown by. -/
structure ForestParams (α : Type) where
  /-- The number of trees. -/
  estimators : Nat
  /-- Trees are grown over this many rows at most. -/
  sampleLimit : Nat
  /-- The expected fraction of outliers. -/
  contamination : α
  /-- The seed of the first tree; the seeds of the others follow it. -/
  randomSeed : Nat
  /-- How many trees may be grown at the same time; as many as there are processors where absent. -/
  workers : Option Nat
deriving DecidableEq, Repr

/-- A fitted isolation forest. -/
structure Forest (α : Type) where
  trees : List (IsolationTree α)
  /-- The number of rows that each tree was grown over. -/
  sampleSize : Nat
  /-- The number of columns. -/
  features : Nat
  contamination : α
  /-- Rows with a lower score are outliers. -/
  offset : α
deriving DecidableEq, Repr

namespace Forest

variable {α σ : Type} [Scalar α]

/-! ### Scores -/

/-- The score that belongs to a mean length of the ways down. -/
def scoreOf (sampleSize : Nat) (meanLength : α) : α :=
  let expected : α := IsolationTree.averagePathLength sampleSize
  if 0 < expected then -Scalar.exp2 (-meanLength / expected) else -1

/-- The mean length of the ways of a row down the trees, added up in the order of the trees. -/
def meanPathLength? (trees : List (IsolationTree α)) (row : List α) : Option α := do
  let lengths ← trees.mapM (IsolationTree.pathLength? row 0)
  return Scalar.sum lengths / (trees.length : α)

/-- The score of a row. -/
def scoreRow (forest : Forest α) (row : List α) : Outcome α α :=
  match meanPathLength? forest.trees row with
  | some meanLength => .ok (scoreOf forest.sampleSize meanLength)
  | none => .error (.breach .featureOutOfRange)

/-- The scores of the rows of a matrix, which must have the right width and be finite. -/
def scores (forest : Forest α) (m : Matrix α) : Outcome α (List α) := do
  if m.width ≠ forest.features then throw (.featureCountMismatch forest.features m.width)
  m.ensureFinite
  m.rows.toList.mapM fun row ↦ forest.scoreRow row.toList

instance : OutlierModel (Forest α) α where
  scores := scores
  offset := offset
  contamination := contamination
  features := features

end Forest

namespace ForestParams

variable {α σ : Type} [Scalar α]

/-- Fails on the first parameter that cannot be used. -/
def check (p : ForestParams α) : Outcome α Unit := do
  checkContamination p.contamination
  if p.estimators = 0 then throw (.invalidParameter .estimators 0)
  if p.workers = some 0 then throw (.invalidParameter .workers 0)
  if p.sampleLimit = 0 then throw (.invalidParameter .sampleLimit 0)

/-- The least height that a tree over `n` rows needs to separate all of them, if it is lucky. -/
def heightLimit (n : Nat) : Nat := if n ≤ 1 then 0 else (n - 1).log2 + 1

/-- The seed of the tree of the given index. -/
def seed (p : ForestParams α) (i : Nat) : UInt64 := p.randomSeed.toUInt64 + i.toUInt64

/-- The tree of the given index: first its sample is drawn, then the tree is grown over it. -/
def growTree (chance : Chance σ α) (p : ForestParams α) (m : Matrix α) (sampleSize i : Nat) :
    IsolationTree α :=
  let (sample, s) := chance.draws.sample m.height sampleSize (chance.start (p.seed i))
  (IsolationTree.grow chance.draws m (heightLimit sampleSize) sample s).1

/-- The forest for a matrix, before its offset is known. -/
def grow (chance : Chance σ α) (p : ForestParams α) (m : Matrix α) : Forest α :=
  let sampleSize := min p.sampleLimit m.height
  { trees := (List.range p.estimators).map (growTree chance p m sampleSize)
    sampleSize
    features := m.width
    contamination := p.contamination
    offset := 0 }

/-- The forest for a matrix, its offset at the quantile of the scores of that matrix. Trees do not
depend on each other, so that the number of workers, which grow them at the same time, is checked
and has no other say. -/
def fit (chance : Chance σ α) (p : ForestParams α) (m : Matrix α) : Outcome α (Forest α) := do
  p.check
  if m.height = 0 then throw .emptySeries
  m.ensureFinite
  let forest := p.grow chance m
  match quantile? p.contamination (← forest.scores m) with
  | some offset => return { forest with offset }
  | none => throw (.breach .rankOutOfRange)

/-- The detector that grows forests by the given parameters, for any fraction of outliers. -/
def detector (chance : Chance σ α) (p : ForestParams α) : Detector α (Forest α) where
  algorithm := "IsolationForest"
  estimators := p.estimators
  randomSeed := p.randomSeed
  fit m contamination := fit chance { p with contamination } m

end ForestParams

end OutlierScoring
