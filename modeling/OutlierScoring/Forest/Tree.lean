import OutlierScoring.Matrix.Basic
import OutlierScoring.Random.Draws

/-!
# Isolation trees

A tree divides a sample of rows again and again by random thresholds on random columns, until a row
stands alone or a height is reached. A row that is easy to separate from the others comes to stand
alone early, so that the length of its way down (`pathLength?`) tells how normal it is.

`IsolationTree.absent` is what stands below a leaf. Grown trees have two children or none, but trees
read from a document can be of any shape; a row goes down only where both children are there.
-/

namespace OutlierScoring

/-- A binary tree of divisions. -/
inductive IsolationTree (α : Type) where
  /-- No tree at all. -/
  | absent
  /-- A node that `size` rows of the sample came to; it divides them where it has a feature. -/
  | node (feature : Option Nat) (threshold : α) (size : Nat) (left right : IsolationTree α)
deriving DecidableEq, Repr

namespace IsolationTree

variable {α σ : Type}

/-- There is a tree. -/
def isPresent : IsolationTree α → Bool
  | absent => false
  | node .. => true

variable [Scalar α]

/-- A node without children. -/
def leaf (size : Nat) : IsolationTree α := .node none 0 size .absent .absent

/-- The Euler–Mascheroni constant. -/
def eulerGamma : α := 0.5772156649

/-- How long the way down to one of `n` rows is expected to be, if random divisions go on until
every row stands alone. -/
def averagePathLength : Nat → α
  | 0 => 0
  | 1 => 0
  | 2 => 1
  | n =>
    let n : α := (n : α)
    Scalar.two * (Scalar.log (n - 1) + eulerGamma) - Scalar.two * (n - 1) / n

/-! ### Growing -/

/-- A column that varies by no more than this is treated as constant. -/
def flatness : α := 1e-7

/-- The least and the greatest of a list of numbers. -/
def extent (x : α) (xs : List α) : α × α := (xs.foldl Scalar.lesser x, xs.foldl Scalar.greater x)

/-- The extent of a column over some rows, unless the column is as good as constant there. -/
def varying? (m : Matrix α) (rows : List (Fin m.height)) (j : Fin m.width) : Option (α × α) :=
  match rows.map fun i ↦ (m.row i).get j with
  | [] => none
  | x :: xs =>
    let (low, high) := extent x xs
    if high - low ≤ flatness then none else some (low, high)

/-- A cell of the row lies below the threshold. -/
def goesLeft (m : Matrix α) (j : Fin m.width) (threshold : α) (i : Fin m.height) : Bool :=
  (m.row i).get j < threshold

/-- Grows a tree of at most the given height over some rows. The columns are gone through in a
random order, and the first one that varies is divided at random, unless rounding leaves one side
empty. -/
def grow (draws : Draws σ α) (m : Matrix α) :
    (height : Nat) → List (Fin m.height) → σ → IsolationTree α × σ
  | 0, rows, s => (leaf rows.length, s)
  | height + 1, rows, s =>
    if rows.length ≤ 1 then (leaf rows.length, s)
    else
      let (columns, s) := draws.shuffle (List.finRange m.width) s
      match columns.findSome? fun j ↦ (varying? m rows j).map (j, ·) with
      | none => (leaf rows.length, s)
      | some (j, low, high) =>
        let (fraction, s) := draws.fraction s
        let threshold := fraction * (high - low) + low
        let left := rows.filter (goesLeft m j threshold)
        let right := rows.filter (!goesLeft m j threshold ·)
        if left.isEmpty ∨ right.isEmpty then (leaf rows.length, s)
        else
          let (leftTree, s) := grow draws m height left s
          let (rightTree, s) := grow draws m height right s
          (.node (some j) threshold rows.length leftTree rightTree, s)

/-! ### Going down -/

/-- The length of the way down for a row, from a node at the given depth: the number of divisions,
and what further divisions of the rows at the end of the way would be expected to add. There is no
such length if a division asks for a column that the row does not have. -/
def pathLength? (row : List α) (depth : α) : IsolationTree α → Option α
  | .absent => some depth
  | .node (some j) threshold _ left@(.node ..) right@(.node ..) =>
    match row[j]? with
    | none => none
    | some x =>
      if x < threshold then pathLength? row (depth + 1) left
      else pathLength? row (depth + 1) right
  | .node _ _ size _ _ => some (depth + averagePathLength size)

end IsolationTree

end OutlierScoring
