import OutlierScoring.Proofs.Forest.Growth
import OutlierScoring.Proofs.Number.Rounded

/-!
# Thresholds of grown trees

A threshold is drawn between the least and the greatest number of a column over some rows, but the
draw is rounded, and may end on either of them or outside. What keeps it inside is the test that
both sides of a division have rows: a row on the left is below the threshold, and a row on the right
is not. In every grown tree, therefore, a threshold is above the least number of its column and not
above the greatest one (`IsGrownOver.splitsWithin`), whatever was drawn.
-/

namespace OutlierScoring

variable {α σ : Type} [Scalar α]

/-! ### Finite matrices -/

namespace Matrix

/-- All cells are finite. -/
def IsFinite (m : Matrix α) : Prop :=
  ∀ row ∈ m.rows.toList, ∀ x ∈ row.toList, Scalar.isFinite x = true

theorem ensureFinite_eq_ok_iff {m : Matrix α} : m.ensureFinite = .ok () ↔ m.IsFinite := by
  have hnone : m.firstNonFinite? = none ↔ m.IsFinite := by
    rw [firstNonFinite?, List.findSome?_eq_none_iff]
    constructor
    · intro h row hrow x hx
      obtain ⟨i, hi⟩ := List.mem_iff_getElem?.mp hrow
      have hcells := h (row, i) (List.mk_mem_zipIdx_iff_getElem?.mpr hi)
      rw [Option.map_eq_none_iff, List.findIdx?_eq_none_iff] at hcells
      simpa using hcells x hx
    · rintro h ⟨row, i⟩ hmem
      rw [Option.map_eq_none_iff, List.findIdx?_eq_none_iff]
      intro x hx
      rw [h row (List.fst_mem_of_mem_zipIdx hmem) x hx]
      rfl
  rw [ensureFinite, ← hnone]
  cases m.firstNonFinite? with
  | none => exact ⟨fun _ ↦ rfl, fun _ ↦ rfl⟩
  | some =>
    refine ⟨fun h ↦ ?_, fun h ↦ ?_⟩
    · cases h
    · cases h

omit [Scalar α] in
theorem get_mem_column (m : Matrix α) (i : Fin m.height) (j : Fin m.width) :
    (m.row i).get j ∈ m.column j :=
  List.mem_map.mpr ⟨m.row i, Array.mem_toList_iff.mpr (Array.getElem_mem i.isLt), rfl⟩

theorem IsFinite.isFinite_column {m : Matrix α} (h : m.IsFinite) (j : Fin m.width) :
    ∀ x ∈ m.column j, Scalar.isFinite x = true := by
  intro x hx
  obtain ⟨row, hrow, rfl⟩ := List.mem_map.mp hx
  exact h row hrow _ (Vector.mem_toList_iff.mpr (Vector.getElem_mem j.isLt))

theorem IsFinite.isFinite_get {m : Matrix α} (h : m.IsFinite) (i : Fin m.height)
    (j : Fin m.width) : Scalar.isFinite ((m.row i).get j) = true :=
  h.isFinite_column j _ (m.get_mem_column i j)

omit [Scalar α] in
theorem column_ne_nil {m : Matrix α} (hheight : 0 < m.height) (j : Fin m.width) :
    m.column j ≠ [] :=
  List.ne_nil_of_length_pos (m.column_length j ▸ hheight)

end Matrix

/-! ### Divisions -/

namespace IsolationTree

/-- All divisions have a property, each given by its column and its threshold. -/
def ForallSplits (P : Nat → α → Prop) : IsolationTree α → Prop
  | .absent => True
  | .node feature threshold _ left right =>
    (∀ j, feature = some j → P j threshold) ∧ left.ForallSplits P ∧ right.ForallSplits P

omit [Scalar α] in
theorem ForallSplits.mono {P Q : Nat → α → Prop} (hPQ : ∀ j t, P j t → Q j t)
    {tree : IsolationTree α} (h : tree.ForallSplits P) : tree.ForallSplits Q := by
  induction tree with
  | absent => trivial
  | node feature threshold size left right hleft hright =>
    exact ⟨fun j hj ↦ hPQ j threshold (h.1 j hj), hleft h.2.1, hright h.2.2⟩

/-- The threshold is above the least number of an existing column, and not above the greatest. -/
def IsInside (m : Matrix α) (j : Nat) (threshold : α) : Prop :=
  ∃ hj : j < m.width, Scalar.least (m.column ⟨j, hj⟩) < threshold ∧
    ¬Scalar.greatest (m.column ⟨j, hj⟩) < threshold

section Ordered

variable [OrderedScalar α] {m : Matrix α}

open OrderedScalar (value)

/-- Two cells on different sides of a threshold keep it inside of their column. -/
theorem isInside_of_cells (hfinite : m.IsFinite) {j : Fin m.width} {threshold : α}
    {below above : Fin m.height} (hbelow : (m.row below).get j < threshold)
    (habove : ¬(m.row above).get j < threshold) : IsInside m j threshold := by
  have hne := Matrix.column_ne_nil (below.pos) j
  have hcolumn := hfinite.isFinite_column j
  obtain ⟨hleast, hleast_le⟩ := OrderedScalar.least_spec hne hcolumn
  obtain ⟨hgreatest, hle_greatest⟩ := OrderedScalar.greatest_spec hne hcolumn
  have hb := hfinite.isFinite_get below j
  have ha := hfinite.isFinite_get above j
  have ht := OrderedScalar.isFinite_of_between hb ha hbelow habove
  refine ⟨j.isLt, ?_, ?_⟩
  · rw [OrderedScalar.lt_iff hb ht] at hbelow
    rw [OrderedScalar.lt_iff (hcolumn _ hleast) ht]
    exact (hleast_le _ (m.get_mem_column below j)).trans_lt hbelow
  · rw [OrderedScalar.lt_iff ha ht, not_lt] at habove
    rw [OrderedScalar.lt_iff (hcolumn _ hgreatest) ht, not_lt]
    exact habove.trans (hle_greatest _ (m.get_mem_column above j))

/-- Whatever was drawn, the thresholds of a grown tree are inside of their columns. -/
theorem IsGrownOver.splitsWithin (hfinite : m.IsFinite) {height : Nat}
    {rows : List (Fin m.height)} {tree : IsolationTree α} (h : IsGrownOver m height rows tree) :
    tree.ForallSplits (IsInside m) := by
  induction h with
  | leaf => exact ⟨nofun, trivial, trivial⟩
  | @node height rows j threshold left right hleft hright _ _ ihleft ihright =>
    refine ⟨?_, ihleft, ihright⟩
    rintro _ ⟨⟩
    obtain ⟨below, hbelow⟩ := List.exists_mem_of_ne_nil _ hleft
    obtain ⟨above, habove⟩ := List.exists_mem_of_ne_nil _ hright
    have hbelow := (List.mem_filter.mp hbelow).2
    have habove := (List.mem_filter.mp habove).2
    rw [goesLeft, decide_eq_true_iff] at hbelow
    rw [goesLeft, Bool.not_eq_true', decide_eq_false_iff_not] at habove
    exact isInside_of_cells hfinite hbelow habove

theorem IsInside.isFinite (hfinite : m.IsFinite) (hheight : 0 < m.height) {j : Nat} {threshold : α}
    (h : IsInside m j threshold) : Scalar.isFinite threshold = true := by
  obtain ⟨hj, hlow, hhigh⟩ := h
  have hne := Matrix.column_ne_nil hheight ⟨j, hj⟩
  have hcolumn := hfinite.isFinite_column ⟨j, hj⟩
  exact OrderedScalar.isFinite_of_between (hcolumn _ (OrderedScalar.least_spec hne hcolumn).1)
    (hcolumn _ (OrderedScalar.greatest_spec hne hcolumn).1) hlow hhigh

end Ordered

end IsolationTree

/-! ### Fitted forests -/

namespace ForestParams

variable {chance : Chance σ α} {p : ForestParams α} {m : Matrix α} {forest : Forest α}

/-- A forest is fitted only to finite rows. -/
theorem isFinite_of_fit (h : p.fit chance m = .ok forest) : 0 < m.height ∧ m.IsFinite := by
  obtain ⟨-, _, _, htraining, -, -⟩ := exists_of_fit_eq_ok h
  obtain ⟨hheight, hfinite, -⟩ := exists_of_trainingScores_eq_ok htraining
  exact ⟨hheight, Matrix.ensureFinite_eq_ok_iff.mp hfinite⟩

theorem splitsWithin_of_fit [OrderedScalar α] (h : p.fit chance m = .ok forest) :
    ∀ tree ∈ forest.trees, tree.ForallSplits (IsolationTree.IsInside m) := by
  intro tree htree
  obtain ⟨s, hgrown⟩ := exists_isGrownOver_of_fit h htree
  exact hgrown.splitsWithin (isFinite_of_fit h).2

end ForestParams

end OutlierScoring
