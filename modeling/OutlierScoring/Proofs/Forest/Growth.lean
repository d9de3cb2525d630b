import Mathlib
import OutlierScoring.Proofs.Forest.Scores
import OutlierScoring.Proofs.Random.Samples

/-!
# Grown trees

Growing divides rows by a comparison, and going down makes a comparison of its own. The two agree
at every node of a grown tree: as many rows of the sample came to the node as have it on their way
down (`Tells.size_eq`).

What growing can do is said once, without the draws: `IsGrownOver` has one rule for leaves and one
for divisions, in which both sides have rows. Whatever is drawn, a tree is grown in this sense
(`isGrownOver_grow`), and every law of grown trees is an induction on the two rules.

A node is named by its position, the sides on which it lies below the root, and the way of a row
(`way`) is the position at which it ends, so that a row goes through the nodes whose positions its
way begins with.
-/

namespace OutlierScoring

/-- The two sides of a division. -/
inductive Side where
  | left
  | right
deriving DecidableEq, Repr

namespace IsolationTree

variable {α σ : Type}

/-! ### Nodes and ways -/

/-- The number of rows that came to the root. -/
def size : IsolationTree α → Nat
  | absent => 0
  | node _ _ size _ _ => size

/-- The node at a position. -/
def nodeAt? : List Side → IsolationTree α → Option (IsolationTree α)
  | _, absent => none
  | [], tree => some tree
  | .left :: position, node _ _ _ left _ => nodeAt? position left
  | .right :: position, node _ _ _ _ right => nodeAt? position right

/-- The sizes of the nodes without children, from left to right. -/
def leafSizes : IsolationTree α → List Nat
  | absent => []
  | node _ _ size absent absent => [size]
  | node _ _ _ left right => left.leafSizes ++ right.leafSizes

theorem nodeAt?_absent (position : List Side) :
    (absent : IsolationTree α).nodeAt? position = none := by
  rw [nodeAt?]

theorem nodeAt?_nil {tree : IsolationTree α} (h : tree.isPresent = true) :
    tree.nodeAt? [] = some tree := by
  cases tree with
  | absent => exact absurd h nofun
  | node => rfl

theorem leafSizes_node (feature : Option Nat) (threshold : α) (size : Nat)
    {left right : IsolationTree α} (h : left.isPresent = true) :
    (node feature threshold size left right).leafSizes = left.leafSizes ++ right.leafSizes := by
  cases left with
  | absent => exact absurd h nofun
  | node => rfl

variable [Scalar α]

/-- The sides that the way of a row takes. Like the way itself they end where a feature or a child
is missing, or where the row has no such cell. -/
def way (row : List α) : IsolationTree α → List Side
  | .absent => []
  | .node (some j) threshold _ left@(.node ..) right@(.node ..) =>
    match row[j]? with
    | none => []
    | some x => if x < threshold then .left :: way row left else .right :: way row right
  | .node .. => []

theorem way_node {row : List α} {j : Nat} {x : α} (hcell : row[j]? = some x) (threshold : α)
    (size : Nat) {left right : IsolationTree α} (hleft : left.isPresent = true)
    (hright : right.isPresent = true) :
    way row (.node (some j) threshold size left right) =
      if x < threshold then .left :: way row left else .right :: way row right := by
  cases left with
  | absent => exact absurd hleft nofun
  | node =>
    cases right with
    | absent => exact absurd hright nofun
    | node => rw [way, hcell]

theorem way_end (row : List α) {feature : Option Nat} (threshold : α) (size : Nat)
    {left right : IsolationTree α} (h : feature = none ∨ left = .absent ∨ right = .absent) :
    way row (.node feature threshold size left right) = [] := by
  rw [way]
  rintro j f t n l r f' t' n' l' r' rfl rfl rfl
  rcases h with h | h | h <;> cases h

/-! ### Growing -/

/-- The tree may be grown over the rows, up to the height: it is a leaf, or it divides the rows in
two parts that are not empty, and has a tree grown over each of them. -/
inductive IsGrownOver (m : Matrix α) :
    (height : Nat) → List (Fin m.height) → IsolationTree α → Prop
  | leaf (height : Nat) (rows : List (Fin m.height)) : IsGrownOver m height rows (leaf rows.length)
  | node {height : Nat} {rows : List (Fin m.height)} {j : Fin m.width} {threshold : α}
      {left right : IsolationTree α} :
      rows.filter (goesLeft m j threshold) ≠ [] →
      rows.filter (!goesLeft m j threshold ·) ≠ [] →
      IsGrownOver m height (rows.filter (goesLeft m j threshold)) left →
      IsGrownOver m height (rows.filter (!goesLeft m j threshold ·)) right →
      IsGrownOver m (height + 1) rows (.node (some j) threshold rows.length left right)

/-- Whatever is drawn, a tree is grown by the two rules. -/
theorem isGrownOver_grow (draws : Draws σ α) (m : Matrix α) (height : Nat)
    (rows : List (Fin m.height)) (s : σ) :
    IsGrownOver m height rows (grow draws m height rows s).1 := by
  induction height generalizing rows s with
  | zero => exact .leaf 0 rows
  | succ height ih =>
    rw [grow]
    split
    · exact .leaf (height + 1) rows
    simp only
    split
    · exact .leaf (height + 1) rows
    split
    · exact .leaf (height + 1) rows
    · rename_i hsides
      rw [List.isEmpty_iff, List.isEmpty_iff, not_or] at hsides
      exact .node hsides.1 hsides.2 (ih _ _) (ih _ _)

namespace IsGrownOver

variable {m : Matrix α} {height : Nat} {rows : List (Fin m.height)} {tree : IsolationTree α}

theorem size_eq (h : IsGrownOver m height rows tree) : tree.size = rows.length := by
  cases h <;> rfl

theorem isPresent (h : IsGrownOver m height rows tree) : tree.isPresent = true := by
  cases h <;> rfl

end IsGrownOver

/-! ### What a tree tells -/

/-- The node divides an existing column, and each of its rows comes to one of its children, to both
of which some rows come. -/
def Divides (width : Nat) : IsolationTree α → Prop
  | .node (some j) _ size left right =>
    j < width ∧ 1 ≤ left.size ∧ 1 ≤ right.size ∧ left.size + right.size = size
  | _ => False

/-- A tree tells of its nodes how many rows of a sample go through them, and where ways end. -/
structure Tells (m : Matrix α) (sample : List (Fin m.height)) (height : Nat)
    (tree : IsolationTree α) : Prop where
  /-- The size of a node is the number of rows that have it on their way. -/
  size_eq {position : List Side} {node : IsolationTree α} :
    tree.nodeAt? position = some node →
      node.size = sample.countP fun i ↦ position <+: way (m.row i).toList tree
  /-- A node has no children and no feature, or it divides its rows. -/
  leaf_or_divides {position : List Side} {node : IsolationTree α} :
    tree.nodeAt? position = some node → node = leaf node.size ∨ node.Divides m.width
  length_le {position : List Side} {node : IsolationTree α} :
    tree.nodeAt? position = some node → position.length ≤ height
  /-- Whatever its cells are, a row ends at a leaf, which settles the length of its way. -/
  exists_leaf (row : Vector α m.width) :
    ∃ size, tree.nodeAt? (way row.toList tree) = some (leaf size) ∧ ∀ depth,
      pathLength? row.toList depth tree =
        some ((· + 1)^[(way row.toList tree).length] depth + averagePathLength size)
  sum_leafSizes : tree.leafSizes.sum = sample.length

omit [Scalar α] in
theorem nodeAt?_node {feature : Option Nat} {threshold : α} {size : Nat}
    {left right node : IsolationTree α} {position : List Side}
    (h : (IsolationTree.node feature threshold size left right).nodeAt? position = some node) :
    (position = [] ∧ node = .node feature threshold size left right) ∨
    (∃ below, position = .left :: below ∧ left.nodeAt? below = some node) ∨
    (∃ below, position = .right :: below ∧ right.nodeAt? below = some node) := by
  rcases position with _ | ⟨side, below⟩
  · exact .inl ⟨rfl, (Option.some.inj h).symm⟩
  · cases side with
    | left => exact .inr (.inl ⟨below, rfl, h⟩)
    | right => exact .inr (.inr ⟨below, rfl, h⟩)

theorem nodeAt?_leaf {size : Nat} {node : IsolationTree α} {position : List Side}
    (h : (leaf size : IsolationTree α).nodeAt? position = some node) :
    position = [] ∧ node = leaf size := by
  rcases nodeAt?_node h with h | ⟨_, -, h⟩ | ⟨_, -, h⟩
  · exact h
  · rw [nodeAt?_absent] at h
    cases h
  · rw [nodeAt?_absent] at h
    cases h

/-- The rows that have a position on their way down. -/
def through (m : Matrix α) (rows : List (Fin m.height)) (tree : IsolationTree α)
    (position : List Side) : List (Fin m.height) :=
  rows.filter fun i ↦ position <+: way (m.row i).toList tree

theorem through_nil (m : Matrix α) (rows : List (Fin m.height)) (tree : IsolationTree α) :
    through m rows tree [] = rows := by
  simp [through]

theorem length_through (m : Matrix α) (rows : List (Fin m.height)) (tree : IsolationTree α)
    (position : List Side) : (through m rows tree position).length =
      rows.countP fun i ↦ position <+: way (m.row i).toList tree :=
  List.countP_eq_length_filter.symm

section Rows

variable {m : Matrix α} {j : Fin m.width} {threshold : α} {left right : IsolationTree α}

omit [Scalar α] in
theorem getElem?_toList (row : Vector α m.width) (j : Fin m.width) :
    row.toList[j.val]? = some (row.get j) := by
  rw [List.getElem?_eq_getElem (by simp)]
  rfl

/-- A row of the matrix goes down on the side on which it was put. -/
theorem way_row (size : Nat) (hleft : left.isPresent = true) (hright : right.isPresent = true)
    (i : Fin m.height) :
    way (m.row i).toList (.node (some j) threshold size left right) =
      if goesLeft m j threshold i then .left :: way (m.row i).toList left
      else .right :: way (m.row i).toList right := by
  rw [way_node (getElem?_toList _ j) threshold size hleft hright, goesLeft]
  simp only [decide_eq_true_eq]

/-- The rows that go through a node on the left are rows that were put on the left. -/
theorem through_left (size : Nat) (hleft : left.isPresent = true) (hright : right.isPresent = true)
    (rows : List (Fin m.height)) (below : List Side) :
    through m rows (.node (some j) threshold size left right) (.left :: below) =
      through m (rows.filter (goesLeft m j threshold)) left below := by
  rw [through, through, List.filter_filter]
  refine List.filter_congr fun i _ ↦ ?_
  rw [way_row size hleft hright]
  split <;> simp_all

theorem through_right (size : Nat) (hleft : left.isPresent = true) (hright : right.isPresent = true)
    (rows : List (Fin m.height)) (below : List Side) :
    through m rows (.node (some j) threshold size left right) (.right :: below) =
      through m (rows.filter (!goesLeft m j threshold ·)) right below := by
  rw [through, through, List.filter_filter]
  refine List.filter_congr fun i _ ↦ ?_
  rw [way_row size hleft hright]
  split <;> simp_all

end Rows

namespace Tells

variable {m : Matrix α} {height : Nat} {rows : List (Fin m.height)}

theorem leaf (height : Nat) (rows : List (Fin m.height)) :
    (leaf rows.length : IsolationTree α).Tells m rows height where
  size_eq h := by
    obtain ⟨rfl, rfl⟩ := nodeAt?_leaf h
    simp [size, IsolationTree.leaf]
  leaf_or_divides h := by
    obtain ⟨rfl, rfl⟩ := nodeAt?_leaf h
    exact .inl rfl
  length_le h := by
    obtain ⟨rfl, rfl⟩ := nodeAt?_leaf h
    exact Nat.zero_le height
  exists_leaf row := by
    rw [show way row.toList (IsolationTree.leaf rows.length) = [] from way_end _ _ _ (.inl rfl)]
    exact ⟨rows.length, rfl, fun depth ↦ pathLength?_end _ depth _ _ (.inl rfl)⟩
  sum_leafSizes := List.sum_singleton

/-- Two trees that tell of the two sides of a division are joined by a node that tells of both. -/
theorem node {j : Fin m.width} {threshold : α} {left right : IsolationTree α}
    (hleft : left.isPresent = true) (hright : right.isPresent = true)
    (hl : left.Tells m (rows.filter (goesLeft m j threshold)) height)
    (hr : right.Tells m (rows.filter (!goesLeft m j threshold ·)) height)
    (hdivides : (IsolationTree.node (some j) threshold rows.length left right).Divides m.width) :
    (IsolationTree.node (some j) threshold rows.length left right).Tells m rows (height + 1) where
  size_eq h := by
    rcases nodeAt?_node h with ⟨rfl, rfl⟩ | ⟨below, rfl, h⟩ | ⟨below, rfl, h⟩
    · simp [size]
    · rw [hl.size_eq h, ← length_through, ← length_through, through_left _ hleft hright]
    · rw [hr.size_eq h, ← length_through, ← length_through, through_right _ hleft hright]
  leaf_or_divides h := by
    rcases nodeAt?_node h with ⟨rfl, rfl⟩ | ⟨below, rfl, h⟩ | ⟨below, rfl, h⟩
    · exact .inr hdivides
    · exact hl.leaf_or_divides h
    · exact hr.leaf_or_divides h
  length_le h := by
    rcases nodeAt?_node h with ⟨rfl, rfl⟩ | ⟨below, rfl, h⟩ | ⟨below, rfl, h⟩
    · exact Nat.zero_le _
    · exact Nat.succ_le_succ (hl.length_le h)
    · exact Nat.succ_le_succ (hr.length_le h)
  exists_leaf row := by
    have hcell := getElem?_toList row j
    rw [way_node hcell threshold rows.length hleft hright]
    simp only [pathLength?_node row.toList _ j threshold rows.length hleft hright, hcell,
      Option.bind_some]
    split
    · obtain ⟨size, hsize, hlength⟩ := hl.exists_leaf row
      exact ⟨size, hsize, fun depth ↦ hlength (depth + 1)⟩
    · obtain ⟨size, hsize, hlength⟩ := hr.exists_leaf row
      exact ⟨size, hsize, fun depth ↦ hlength (depth + 1)⟩
  sum_leafSizes := by
    rw [leafSizes_node _ _ _ hleft, List.sum_append, hl.sum_leafSizes, hr.sum_leafSizes]
    exact (List.length_eq_length_filter_add _).symm

end Tells

/-- A tree tells of the rows that it was grown over. -/
theorem IsGrownOver.tells {m : Matrix α} {height : Nat} {rows : List (Fin m.height)}
    {tree : IsolationTree α} (h : IsGrownOver m height rows tree) : tree.Tells m rows height := by
  induction h with
  | leaf height rows => exact .leaf height rows
  | @node height rows j threshold left right hleft hright hl hr ihleft ihright =>
    have hdivides : (IsolationTree.node (some j) threshold rows.length left right).Divides
        m.width := by
      refine ⟨j.isLt, ?_, ?_, ?_⟩
      · exact hl.size_eq ▸ List.length_pos_of_ne_nil hleft
      · exact hr.size_eq ▸ List.length_pos_of_ne_nil hright
      · rw [hl.size_eq, hr.size_eq]
        exact (List.length_eq_length_filter_add _).symm
    exact .node hl.isPresent hr.isPresent ihleft ihright hdivides

end IsolationTree

/-! ### Forests -/

namespace ForestParams

variable {α σ : Type} [Scalar α]

/-- The trees of a fitted forest are grown over samples of the rows. -/
theorem exists_isGrownOver_of_fit {chance : Chance σ α} {p : ForestParams α} {m : Matrix α}
    {forest : Forest α} (h : p.fit chance m = .ok forest) {tree : IsolationTree α}
    (htree : tree ∈ forest.trees) :
    ∃ s, tree.IsGrownOver m (heightLimit (min p.sampleLimit m.height))
      (chance.draws.sample m.height (min p.sampleLimit m.height) s).1 := by
  obtain ⟨-, _, _, -, -, rfl⟩ := exists_of_fit_eq_ok h
  obtain ⟨i, -, rfl⟩ := List.mem_map.mp htree
  exact ⟨chance.start (p.seed i), IsolationTree.isGrownOver_grow _ _ _ _ _⟩

theorem length_trees_of_fit {chance : Chance σ α} {p : ForestParams α} {m : Matrix α}
    {forest : Forest α} (h : p.fit chance m = .ok forest) :
    forest.trees.length = p.estimators := by
  obtain ⟨-, _, _, -, -, rfl⟩ := exists_of_fit_eq_ok h
  simp [grow]

/-- A forest that was fitted has trees. -/
theorem trees_ne_nil_of_fit {chance : Chance σ α} {p : ForestParams α} {m : Matrix α}
    {forest : Forest α} (h : p.fit chance m = .ok forest) : forest.trees ≠ [] := by
  rw [← List.length_pos_iff, length_trees_of_fit h]
  exact Nat.pos_of_ne_zero (counts_of_fit h).1

/-- Whatever is drawn, a tree tells of the rows that it is grown over. A fitted forest has as many
trees as it was asked for, and each of them tells of a sample of its own, all of which came to the
root. -/
theorem trees_tell (draws : Draws σ α) (start : UInt64 → σ) (m : Matrix α) :
    (∀ (height : Nat) (rows : List (Fin m.height)) (s : σ),
      (IsolationTree.grow draws m height rows s).1.Tells m rows height) ∧
    (draws.SamplesDistinct → ∀ {p : ForestParams α} {forest : Forest α},
      p.fit ⟨draws, start⟩ m = .ok forest →
        forest.trees.length = p.estimators ∧
        ∀ tree ∈ forest.trees, tree.size = min p.sampleLimit m.height ∧
          ∃ sample, IsSample (min p.sampleLimit m.height) sample ∧
            tree.Tells m sample (heightLimit (min p.sampleLimit m.height))) := by
  refine ⟨fun height rows s ↦ (IsolationTree.isGrownOver_grow draws m height rows s).tells,
    fun hdistinct p forest h ↦ ⟨length_trees_of_fit h, fun tree htree ↦ ?_⟩⟩
  obtain ⟨s, hgrown⟩ := exists_isGrownOver_of_fit h htree
  have hsample := hdistinct (Nat.min_le_right p.sampleLimit m.height) s
  exact ⟨hgrown.size_eq.trans hsample.length_eq, _, hsample, hgrown.tells⟩

/-- Parameters for a forest of two trees, which are grown over four rows at most. -/
def twoTrees : ForestParams α where
  estimators := 2
  sampleLimit := 4
  contamination := 0.5
  randomSeed := 42
  workers := none

/-- Two numbers are enough for a fit. -/
theorem exists_fit_pair [LawfulRanks α] {chance : Chance σ α} (hc : IsContamination (0.5 : α))
    (hfinite : (Matrix.ofSeries [(0 : α), 1]).ensureFinite = .ok ()) :
    ∃ forest, twoTrees.fit chance (.ofSeries [(0 : α), 1]) = .ok forest := by
  have hc : IsContamination (twoTrees : ForestParams α).contamination := hc
  have hheight : 0 < (Matrix.ofSeries [(0 : α), 1]).height := Nat.zero_lt_two
  obtain ⟨_, _, -, -, -, hfit⟩ := exists_fit_eq_ok hc rfl hheight hfinite
  exact ⟨_, hfit⟩

theorem exists_fit_pair_float :
    ∃ forest, twoTrees.fit Keystream.chance (.ofSeries [(0 : Float), 1]) = .ok forest := by
  obtain ⟨_, hfinite⟩ := Outcome.exists_of_isOk
    (show (Matrix.ofSeries [(0 : Float), 1]).ensureFinite.isOk = true by decide +kernel)
  exact exists_fit_pair (by decide +kernel) hfinite

/-- Both trees over two floats have two rows at their roots. -/
theorem trees_tell_pair : ∃ forest,
    twoTrees.fit Keystream.chance (.ofSeries [(0 : Float), 1]) = .ok forest ∧
    forest.trees.length = 2 ∧
    ∀ tree ∈ forest.trees, tree.size = 2 ∧ ∃ sample, IsSample 2 sample ∧
      tree.Tells (.ofSeries [(0 : Float), 1]) sample 1 := by
  obtain ⟨forest, hfit⟩ := exists_fit_pair_float
  obtain ⟨-, hforest⟩ := trees_tell Keystream.draws Keystream.ofSeed (.ofSeries [(0 : Float), 1])
  obtain ⟨hlength, htrees⟩ := hforest Keystream.samplesDistinct hfit
  exact ⟨forest, hfit, hlength, htrees⟩

end ForestParams

end OutlierScoring
