import OutlierScoring.Forest.Form
import OutlierScoring.Proofs.Json.Forms

/-!
# Forests in documents

Which forests are read back from their documents: those whose numbers are finite and whose trees are
no higher than a reader goes down (`Forest.IsStorable`). Every other forest is refused
(`reads_forest`), so that no forest is ever read back as another one.
-/

namespace OutlierScoring

variable {α : Type} [Scalar α]

namespace IsolationTree

/-! ### Trees that can be stored -/

omit [Scalar α] in
/-- The number of nodes on the longest way down. -/
def height : IsolationTree α → Nat
  | .absent => 0
  | .node _ _ _ left right => max left.height right.height + 1

/-- Thresholds are finite, and features and sizes are machine words. -/
def HasNumbers : IsolationTree α → Prop
  | .absent => True
  | .node feature threshold size left right =>
    (∀ j ∈ feature, j < UInt64.size) ∧ Scalar.isFinite threshold = true ∧ size < UInt64.size ∧
      left.HasNumbers ∧ right.HasNumbers

omit [Scalar α] in
/-- The tree, unless it is absent. -/
def toOption : IsolationTree α → Option (IsolationTree α)
  | .absent => none
  | tree@(.node ..) => some tree

omit [Scalar α] in
@[simp]
theorem getD_toOption (tree : IsolationTree α) : tree.toOption.getD .absent = tree := by
  cases tree <;> rfl

omit [Scalar α] in
theorem isPresent_of_mem_toOption {tree node : IsolationTree α} (h : node ∈ tree.toOption) :
    node = tree ∧ tree.isPresent = true := by
  cases tree with
  | absent => exact absurd h nofun
  | node => exact ⟨(Option.mem_some.mp h).symm, rfl⟩

variable [Numeral α]

omit [Scalar α] in
theorem toJson_eq_optional (tree : IsolationTree α) :
    tree.toJson = Json.optional toJson tree.toOption := by
  cases tree <;> rfl

omit [Scalar α] in
theorem nesting_toJson_le (tree : IsolationTree α) : tree.toJson.nesting ≤ tree.height := by
  induction tree with
  | absent => exact Nat.le_refl 0
  | node feature threshold size left right hleft hright =>
    refine Json.nesting_record_le ?_
    intro member hmember
    simp only [List.mem_cons, List.not_mem_nil, or_false] at hmember
    rcases hmember with rfl | rfl | rfl | rfl | rfl
    · cases feature <;> exact Nat.zero_le _
    · rw [Json.nesting_scalar]
      exact Nat.zero_le _
    · exact Nat.zero_le _
    · exact hleft.trans (Nat.le_max_left _ _)
    · exact hright.trans (Nat.le_max_right _ _)

/-! ### Reading trees -/

/-- Reading a node goes through its five fields. -/
theorem ofJson?_node (depth : Nat) (feature : Option Nat) (threshold : α) (size : Nat)
    (left right : IsolationTree α) :
    ofJson? (depth + 1) (toJson (.node feature threshold size left right)).canonical =
      (do
        let feature ← Json.optional? Json.nat? (Json.optional .nat feature).canonical
        let threshold ← Json.scalar? (Json.scalar threshold).canonical
        let size ← Json.nat? (Json.nat size).canonical
        let left ← Json.optional? (ofJson? depth) left.toJson.canonical
        let right ← Json.optional? (ofJson? depth) right.toJson.canonical
        return (.node feature threshold size (left.getD .absent) (right.getD .absent) :
          IsolationTree α)) := by
  rw [toJson, ofJson?, Json.fields?_record ["split_feature", "split_value", "size", "left", "right"]
    rfl (by decide)]
  rfl

variable [LawfulNumeral α]

omit [LawfulNumeral α] in
/-- A child is read back if trees are, and an absent one is read back at any depth. -/
theorem reads_child {child : IsolationTree α} {depth : Nat}
    (h : Json.Reads (ofJson? depth child.toJson.canonical) child
      (child.isPresent = true ∧ child.height ≤ depth ∧ child.HasNumbers)) :
    Json.Reads (Json.optional? (ofJson? depth) child.toJson.canonical) child.toOption
      (child.height ≤ depth ∧ child.HasNumbers) := by
  have hnode : ∀ node ∈ child.toOption, Json.Reads (ofJson? depth node.toJson.canonical) node
      (node.isPresent = true ∧ node.height ≤ depth ∧ node.HasNumbers) := by
    intro node hnode
    obtain ⟨rfl, -⟩ := isPresent_of_mem_toOption hnode
    exact h
  have hnull : ∀ node ∈ child.toOption, node.toJson.canonical ≠ .null := by
    intro node hmem
    obtain ⟨rfl, hpresent⟩ := isPresent_of_mem_toOption hmem
    cases node with
    | absent => exact absurd hpresent nofun
    | node => exact nofun
  rw [toJson_eq_optional]
  refine (Json.reads_optional _ _ hnull hnode).congr ?_
  cases child with
  | absent => simp [toOption, height, HasNumbers]
  | node => simp [toOption, isPresent]

/-- A tree is read back exactly if the reader goes down far enough and its numbers can be read. -/
theorem reads_tree (tree : IsolationTree α) (depth : Nat) :
    Json.Reads (ofJson? depth tree.toJson.canonical) tree
      (tree.isPresent = true ∧ tree.height ≤ depth ∧ tree.HasNumbers) := by
  induction tree generalizing depth with
  | absent =>
    refine Json.reads_of_eq (fun h ↦ absurd h.1 nofun) fun _ ↦ ?_
    cases depth <;> rfl
  | node feature threshold size left right hleft hright =>
    -- A node takes one level of the reader, whether it has children or not.
    rcases depth with _ | depth
    · exact Json.reads_of_eq (fun h ↦ absurd h.2.1 (Nat.not_succ_le_zero _)) fun _ ↦ rfl
    have hfeature : Json.Reads (Json.optional? Json.nat? (Json.optional .nat feature).canonical)
        feature (∀ j ∈ feature, j < UInt64.size) :=
      Json.reads_optional .nat feature (fun j _ ↦ show Json.number _ ≠ .null from nofun)
        fun j _ ↦ Json.reads_nat j
    have hnode : Json.Reads (some (IsolationTree.node feature threshold size
        (left.toOption.getD .absent) (right.toOption.getD .absent)))
        (.node feature threshold size left right) True := by
      rw [getD_toOption, getD_toOption]
      exact Json.reads_some _
    rw [ofJson?_node]
    refine Json.Reads.congr (hfeature.bind ((Json.reads_scalar threshold).bind
      ((Json.reads_nat size).bind ((reads_child (hleft depth)).bind
        ((reads_child (hright depth)).bind hnode))))) ?_
    simp only [isPresent, height, HasNumbers, Nat.succ_le_succ_iff, Nat.max_le]
    tauto

/-- A tree that stands in a record of its own. -/
theorem reads_root (tree : IsolationTree α) (depth : Nat) :
    Json.Reads (ofRootJson? (depth + 1) (Json.record [("root", tree.toJson)]).canonical) tree
      (tree.isPresent = true ∧ tree.height ≤ depth ∧ tree.HasNumbers) := by
  rw [ofRootJson?, Json.fields?_record ["root"] rfl (by decide)]
  exact reads_tree tree depth

end IsolationTree

namespace Forest

/-- The height of the highest tree that is read back: the record of a stored state, that of the
forest, the list of the trees and the record of a tree are around it. -/
def heightLimit : Nat := Json.depthLimit - 4

/-- The forest is read back from its document. -/
structure IsStorable (forest : Forest α) : Prop where
  trees : ∀ tree ∈ forest.trees,
    tree.isPresent = true ∧ tree.height ≤ heightLimit ∧ tree.HasNumbers
  sampleSize_lt : forest.sampleSize < UInt64.size
  features_lt : forest.features < UInt64.size
  contamination_finite : Scalar.isFinite forest.contamination = true
  offset_finite : Scalar.isFinite forest.offset = true

variable [Numeral α]

/-- The highest tree makes the document of a forest nest. -/
theorem nesting_toJson_le {forest : Forest α} {limit : Nat}
    (h : ∀ tree ∈ forest.trees, tree.height ≤ limit) :
    (Json.Form.toJson forest).nesting ≤ limit + 3 := by
  refine Json.nesting_record_le ?_
  intro member hmember
  simp only [List.mem_cons, List.not_mem_nil, or_false] at hmember
  rcases hmember with rfl | rfl | rfl | rfl | rfl
  · refine Json.nesting_list_le fun tree htree ↦ Json.nesting_record_le fun root hroot ↦ ?_
    obtain rfl := List.mem_singleton.mp hroot
    exact tree.nesting_toJson_le.trans (h tree htree)
  · exact Nat.zero_le _
  · exact Nat.zero_le _
  · rw [Json.nesting_scalar]
    exact Nat.zero_le _
  · rw [Json.nesting_scalar]
    exact Nat.zero_le _

theorem IsStorable.nesting_lt {forest : Forest α} (h : forest.IsStorable) :
    (Json.Form.toJson forest).nesting < Json.maxNesting :=
  Nat.lt_of_le_of_lt (nesting_toJson_le fun tree htree ↦ (h.trees tree htree).2.1) (by decide)

/-- Reading a forest goes through its five fields. -/
theorem ofJson?_toJson (depth : Nat) (forest : Forest α) :
    (Json.Form.ofJson? (depth + 1) (Json.Form.toJson forest).canonical : Option (Forest α)) =
      (do
        let trees ← Json.list? depth IsolationTree.ofRootJson?
          (Json.list (forest.trees.map fun tree ↦ .record [("root", tree.toJson)])).canonical
        let sampleSize ← Json.nat? (Json.nat forest.sampleSize).canonical
        let features ← Json.nat? (Json.nat forest.features).canonical
        let contamination ← Json.scalar? (Json.scalar forest.contamination).canonical
        let offset ← Json.scalar? (Json.scalar forest.offset).canonical
        return { trees, sampleSize, features, contamination, offset }) := by
  simp only [Json.Form.ofJson?, Json.Form.toJson]
  rw [Json.fields?_record ["trees", "subsample_size", "n_features", "contamination", "offset"] rfl
    (by decide)]
  rfl

variable [LawfulNumeral α]

/-- A forest is read back exactly if the reader goes down far enough for its trees and its numbers
can be read. -/
theorem reads_toJson (limit : Nat) (forest : Forest α) :
    Json.Reads (Json.Form.ofJson? (limit + 3) (Json.Form.toJson forest).canonical) forest
      ((∀ tree ∈ forest.trees,
          tree.isPresent = true ∧ tree.height ≤ limit ∧ tree.HasNumbers) ∧
        forest.sampleSize < UInt64.size ∧ forest.features < UInt64.size ∧
        Scalar.isFinite forest.contamination = true ∧ Scalar.isFinite forest.offset = true) := by
  have htrees := Json.reads_list (fun tree : IsolationTree α ↦ .record [("root", tree.toJson)])
    IsolationTree.ofRootJson? (limit + 1) forest.trees fun tree _ ↦ tree.reads_root limit
  rw [ofJson?_toJson]
  refine Json.Reads.congr (htrees.bind ((Json.reads_nat _).bind ((Json.reads_nat _).bind
    ((Json.reads_scalar _).bind ((Json.reads_scalar _).bind (Json.reads_some _)))))) ?_
  simp only [and_true]

/-- A forest in a stored state is read back exactly if it can be stored. -/
theorem reads_forest (forest : Forest α) :
    Json.Reads (Json.Form.ofJson? (Json.depthLimit - 1) (Json.Form.toJson forest).canonical) forest
      forest.IsStorable := by
  refine (reads_toJson heightLimit forest).congr ⟨?_, ?_⟩
  · rintro ⟨h, hsize, hfeatures, hcontamination, hoffset⟩
    exact ⟨h, hsize, hfeatures, hcontamination, hoffset⟩
  · rintro ⟨h, hsize, hfeatures, hcontamination, hoffset⟩
    exact ⟨h, hsize, hfeatures, hcontamination, hoffset⟩

/-- Without anything around it there is room for trees that are higher by one, so that a forest that
can be stored is read back from a text of its own. -/
theorem IsStorable.read?_compact {forest : Forest α} (h : forest.IsStorable) :
    Json.Form.read? (Json.Form.toJson forest).compact = some forest := by
  have hreads : Json.Reads
      (Json.Form.ofJson? Json.depthLimit (Json.Form.toJson forest).canonical) forest _ :=
    reads_toJson (heightLimit + 1) forest
  refine (Json.reads_compact hreads fun _ ↦ h.nesting_lt.le).eq_some
    ⟨fun tree htree ↦ ?_, h.sampleSize_lt, h.features_lt, h.contamination_finite, h.offset_finite⟩
  obtain ⟨hpresent, hheight, hnumbers⟩ := h.trees tree htree
  exact ⟨hpresent, Nat.le_succ_of_le hheight, hnumbers⟩

end Forest

end OutlierScoring
