import Mathlib
import OutlierScoring.Proofs.Forest.Level

/-!
# Isolated rows

Growing looks for a column that varies, divides it once, and stops if one side of the division is
empty. Nothing else stops it, so all depends on the drawn threshold. Where numbers are not rounded,
a fraction strictly between `0` and `1` puts it strictly between the least and the greatest number
of the column (`IsolationTree.sides_ne_nil`), and the two rows in which these stand are separated.

Hence a node above the height limit is a leaf only if all columns are level over the rows that go
through it, in whatever order the columns were gone through: those that are level are passed over,
and the first that is not is divided (`IsolationTree.isolates_grow`).

The fractions that matter are those that are drawn on the way, and a supply of draws can be asked to
record them (`Draws.recording`). A step of growing is told apart by what is divided next (`next?`),
and `Grows` has a rule for each way in which it can go on, with the fractions that are drawn on it.
What is recorded belongs to these rules, and the record changes nothing else
(`exists_grow_recording`).
-/

namespace OutlierScoring

variable {α σ β : Type}

/-! ### Recorded draws -/

namespace Draws

/-- The same supply, with a record of the fractions that were drawn, the last one first. -/
def recording (draws : Draws σ α) : Draws (σ × List α) α where
  index bound s := ((draws.index bound s.1).1, (draws.index bound s.1).2, s.2)
  fraction s := ((draws.fraction s.1).1, (draws.fraction s.1).2, (draws.fraction s.1).1 :: s.2)
  sample length amount s :=
    ((draws.sample length amount s.1).1, (draws.sample length amount s.1).2, s.2)

theorem shuffleFrom_recording (draws : Draws σ α) {n i : ℕ} (h : i < n) (items : Vector β n)
    (s : σ × List α) : draws.recording.shuffleFrom i h items s =
      ((draws.shuffleFrom i h items s.1).1, (draws.shuffleFrom i h items s.1).2, s.2) := by
  induction i generalizing items s with
  | zero => rfl
  | succ i ih =>
    rw [shuffleFrom, shuffleFrom]
    exact ih _ _ _

/-- A shuffle draws no fractions. -/
theorem shuffle_recording (draws : Draws σ α) (items : List β) (s : σ × List α) :
    draws.recording.shuffle items s =
      ((draws.shuffle items s.1).1, (draws.shuffle items s.1).2, s.2) := by
  rw [shuffle, shuffle]
  split
  · rw [shuffleFrom_recording]
  · rfl

end Draws

namespace IsolationTree

variable [Scalar α]

/-! ### Single steps -/

/-- The column that is divided next and its extent, or nothing if the rows are left together, and
the state after the choice. -/
def next? (draws : Draws σ α) (m : Matrix α) (rows : List (Fin m.height)) (s : σ) :
    Option (Fin m.width × α × α) × σ :=
  if rows.length ≤ 1 then (none, s)
  else ((draws.shuffle (List.finRange m.width) s).1.findSome? fun j ↦
    (varying? m rows j).map (j, ·), (draws.shuffle (List.finRange m.width) s).2)

theorem next?_recording (draws : Draws σ α) (m : Matrix α) (rows : List (Fin m.height))
    (s : σ × List α) : next? draws.recording m rows s =
      ((next? draws m rows s.1).1, (next? draws m rows s.1).2, s.2) := by
  rw [next?, next?, Draws.shuffle_recording]
  split
  · rfl
  · rfl

section Step

variable {draws : Draws σ α} {m : Matrix α} {height : ℕ} {rows : List (Fin m.height)} {s s' s'' : σ}

/-- Nothing is divided only if no column varies, wherever the shuffle has put it. -/
theorem length_le_one_or_forall_eq_none (h : next? draws m rows s = (none, s')) :
    rows.length ≤ 1 ∨ ∀ j, varying? m rows j = none := by
  rw [next?] at h
  split at h
  · exact .inl ‹_›
  refine .inr fun j ↦ ?_
  have hmem : j ∈ (draws.shuffle (List.finRange m.width) s).1 :=
    (draws.shuffle_perm _ s).mem_iff.mpr (List.mem_finRange j)
  exact Option.map_eq_none_iff.mp (List.findSome?_eq_none_iff.mp (congrArg Prod.fst h) j hmem)

theorem varying?_of_next? {j : Fin m.width} {low high : α}
    (h : next? draws m rows s = (some (j, low, high), s')) :
    varying? m rows j = some (low, high) := by
  rw [next?] at h
  split at h
  · cases h
  obtain ⟨j', -, hfound⟩ := List.exists_of_findSome?_eq_some (congrArg Prod.fst h)
  obtain ⟨_, hvarying, heq⟩ := Option.map_eq_some_iff.mp hfound
  obtain ⟨rfl, rfl⟩ := Prod.mk.inj heq
  exact hvarying

theorem grow_of_next?_eq_none (h : next? draws m rows s = (none, s')) :
    grow draws m (height + 1) rows s = (leaf rows.length, s') := by
  rw [next?] at h
  rw [grow]
  split at h
  · rw [if_pos ‹_›]
    exact congrArg (leaf rows.length, ·) (Prod.mk.inj h).2
  · obtain ⟨hnone, rfl⟩ := Prod.mk.inj h
    rw [if_neg ‹_›]
    simp only [hnone]

theorem grow_of_next?_eq_some {j : Fin m.width} {low high fraction : α}
    (h : next? draws m rows s = (some (j, low, high), s'))
    (hdraw : draws.fraction s' = (fraction, s'')) :
    grow draws m (height + 1) rows s =
      let threshold := fraction * (high - low) + low
      let left := rows.filter (goesLeft m j threshold)
      let right := rows.filter (!goesLeft m j threshold ·)
      if left = [] ∨ right = [] then (leaf rows.length, s'')
      else
        let leftTree := grow draws m height left s''
        let rightTree := grow draws m height right leftTree.2
        (.node (some j) threshold rows.length leftTree.1 rightTree.1, rightTree.2) := by
  rw [next?] at h
  rw [grow]
  split at h
  · cases h
  · obtain ⟨hsome, rfl⟩ := Prod.mk.inj h
    rw [if_neg ‹_›]
    simp only [hsome, hdraw, List.isEmpty_iff]

end Step

/-! ### Growing with the drawn fractions -/

/-- The tree may be grown over the rows, up to the height, with these fractions drawn on the way,
the last one first. There is one rule for each way in which growing can go. -/
inductive Grows (m : Matrix α) :
    (height : ℕ) → List (Fin m.height) → IsolationTree α → List α → Prop
  | limit (rows : List (Fin m.height)) : Grows m 0 rows (leaf rows.length) []
  | single {height : ℕ} {rows : List (Fin m.height)} :
      rows.length ≤ 1 → Grows m height rows (leaf rows.length) []
  | level {height : ℕ} {rows : List (Fin m.height)} :
      (∀ j, varying? m rows j = none) → Grows m height rows (leaf rows.length) []
  | stuck {height : ℕ} {rows : List (Fin m.height)} {j : Fin m.width} {low high fraction : α} :
      varying? m rows j = some (low, high) →
      rows.filter (goesLeft m j (fraction * (high - low) + low)) = [] ∨
        rows.filter (!goesLeft m j (fraction * (high - low) + low) ·) = [] →
      Grows m height rows (leaf rows.length) [fraction]
  | node {height : ℕ} {rows : List (Fin m.height)} {j : Fin m.width} {low high fraction : α}
      {left right : IsolationTree α} {drawnLeft drawnRight : List α} :
      varying? m rows j = some (low, high) →
      rows.filter (goesLeft m j (fraction * (high - low) + low)) ≠ [] →
      rows.filter (!goesLeft m j (fraction * (high - low) + low) ·) ≠ [] →
      Grows m height (rows.filter (goesLeft m j (fraction * (high - low) + low))) left drawnLeft →
      Grows m height (rows.filter (!goesLeft m j (fraction * (high - low) + low) ·)) right
        drawnRight →
      Grows m (height + 1) rows
        (.node (some j) (fraction * (high - low) + low) rows.length left right)
        (drawnRight ++ drawnLeft ++ [fraction])

/-- Growing goes by the rules, and a record of its draws does not change it. What is recorded was
drawn. -/
theorem exists_grow_recording (draws : Draws σ α) (m : Matrix α) (height : ℕ)
    (rows : List (Fin m.height)) (s : σ × List α) :
    ∃ drawn, grow draws.recording m height rows s =
        ((grow draws m height rows s.1).1, (grow draws m height rows s.1).2, drawn ++ s.2) ∧
      Grows m height rows (grow draws m height rows s.1).1 drawn ∧
      ∀ fraction ∈ drawn, ∃ state, fraction = (draws.fraction state).1 := by
  induction height generalizing rows s with
  | zero => exact ⟨[], rfl, .limit rows, nofun⟩
  | succ height ih =>
    have hrecording := next?_recording draws m rows s
    rcases hnext : next? draws m rows s.1 with ⟨_ | ⟨j, low, high⟩, s'⟩
    · rw [hnext] at hrecording
      rw [grow_of_next?_eq_none hnext, grow_of_next?_eq_none hrecording]
      refine ⟨[], rfl, ?_, nofun⟩
      exact (length_le_one_or_forall_eq_none hnext).elim .single .level
    rw [hnext] at hrecording
    rcases hdraw : draws.fraction s' with ⟨fraction, s''⟩
    have hdrawn : ∃ state, fraction = (draws.fraction state).1 := ⟨s', by rw [hdraw]⟩
    have hrecorded : draws.recording.fraction (s', s.2) = (fraction, s'', fraction :: s.2) := by
      simp only [Draws.recording, hdraw]
    rw [grow_of_next?_eq_some hnext hdraw, grow_of_next?_eq_some hrecording hrecorded]
    have hvarying := varying?_of_next? hnext
    simp only
    generalize hleft : rows.filter (goesLeft m j (fraction * (high - low) + low)) = left
    generalize hright : rows.filter (!goesLeft m j (fraction * (high - low) + low) ·) = right
    by_cases hsides : left = [] ∨ right = []
    · rw [if_pos hsides, if_pos hsides]
      refine ⟨[fraction], rfl, .stuck hvarying (hleft ▸ hright ▸ hsides), ?_⟩
      simpa using hdrawn
    rw [if_neg hsides, if_neg hsides]
    rw [not_or] at hsides
    obtain ⟨drawnLeft, hgrowLeft, hgrowsLeft, hdrawnLeft⟩ := ih left (s'', fraction :: s.2)
    obtain ⟨drawnRight, hgrowRight, hgrowsRight, hdrawnRight⟩ :=
      ih right ((grow draws m height left s'').2, drawnLeft ++ fraction :: s.2)
    subst hleft hright
    refine ⟨drawnRight ++ drawnLeft ++ [fraction], ?_,
      .node hvarying hsides.1 hsides.2 hgrowsLeft hgrowsRight, ?_⟩
    · rw [hgrowLeft, hgrowRight]
      simp
    · simp only [List.forall_mem_append, List.forall_mem_singleton]
      exact ⟨⟨hdrawnRight, hdrawnLeft⟩, hdrawn⟩

/-- The fractions that are drawn while a tree is grown, the last one first. -/
def fractions (draws : Draws σ α) (m : Matrix α) (height : ℕ) (rows : List (Fin m.height))
    (s : σ) : List α :=
  (grow draws.recording m height rows (s, [])).2.2

theorem grows_fractions (draws : Draws σ α) (m : Matrix α) (height : ℕ)
    (rows : List (Fin m.height)) (s : σ) :
    Grows m height rows (grow draws m height rows s).1 (fractions draws m height rows s) := by
  obtain ⟨drawn, hrecording, hgrows, -⟩ := exists_grow_recording draws m height rows (s, [])
  rw [fractions, hrecording]
  simpa using hgrows

/-- All fractions come from the supply of draws. -/
theorem exists_fraction_eq {draws : Draws σ α} {m : Matrix α} {height : ℕ}
    {rows : List (Fin m.height)} {s : σ} {fraction : α}
    (h : fraction ∈ fractions draws m height rows s) :
    ∃ state, fraction = (draws.fraction state).1 := by
  obtain ⟨drawn, hrecording, -, hdrawn⟩ := exists_grow_recording draws m height rows (s, [])
  rw [fractions, hrecording] at h
  exact hdrawn fraction (by simpa using h)

namespace Grows

variable {m : Matrix α} {height : ℕ} {rows : List (Fin m.height)} {tree : IsolationTree α}
  {drawn : List α}

theorem size_eq (h : Grows m height rows tree drawn) : tree.size = rows.length := by
  cases h <;> rfl

theorem isPresent (h : Grows m height rows tree drawn) : tree.isPresent = true := by
  cases h <;> rfl

/-- A node is itself grown, over the rows that go through it, up to the height that is left. -/
theorem exists_below (h : Grows m height rows tree drawn) {position : List Side}
    {node : IsolationTree α} (hnode : tree.nodeAt? position = some node) :
    ∃ rest, position.length + rest = height ∧ ∃ drawn' ⊆ drawn,
      Grows m rest (through m rows tree position) node drawn' := by
  have hroot {height : ℕ} {rows : List (Fin m.height)} {tree : IsolationTree α} {drawn : List α}
      (h : Grows m height rows tree drawn) :
      ∃ rest, ([] : List Side).length + rest = height ∧ ∃ drawn' ⊆ drawn,
        Grows m rest (through m rows tree []) tree drawn' := by
    refine ⟨height, Nat.zero_add _, drawn, List.Subset.refl _, ?_⟩
    rwa [through_nil]
  induction h generalizing position node with
  | limit rows =>
    obtain ⟨rfl, rfl⟩ := nodeAt?_leaf hnode
    exact hroot (.limit rows)
  | single hlength =>
    obtain ⟨rfl, rfl⟩ := nodeAt?_leaf hnode
    exact hroot (.single hlength)
  | level hnone =>
    obtain ⟨rfl, rfl⟩ := nodeAt?_leaf hnode
    exact hroot (.level hnone)
  | stuck hvarying hsides =>
    obtain ⟨rfl, rfl⟩ := nodeAt?_leaf hnode
    exact hroot (.stuck hvarying hsides)
  | @node height rows j low high fraction left right drawnLeft drawnRight hvarying hleft hright
      hgrowsLeft hgrowsRight ihleft ihright =>
    have hpresent := hgrowsLeft.isPresent
    have hpresent' := hgrowsRight.isPresent
    rcases nodeAt?_node hnode with ⟨rfl, rfl⟩ | ⟨below, rfl, hnode⟩ | ⟨below, rfl, hnode⟩
    · exact hroot (.node hvarying hleft hright hgrowsLeft hgrowsRight)
    · obtain ⟨rest, hrest, drawn', hsub, hgrows⟩ := ihleft hnode
      refine ⟨rest, by rw [List.length_cons]; omega, drawn', fun f hf ↦ ?_,
        through_left _ hpresent hpresent' rows below ▸ hgrows⟩
      simp [hsub hf]
    · obtain ⟨rest, hrest, drawn', hsub, hgrows⟩ := ihright hnode
      refine ⟨rest, by rw [List.length_cons]; omega, drawn', fun f hf ↦ ?_,
        through_right _ hpresent hpresent' rows below ▸ hgrows⟩
      simp [hsub hf]

end Grows

/-! ### Exact thresholds -/

section Exact

variable {m : Matrix ℝ} {rows : List (Fin m.height)} {j : Fin m.width}

theorem isFinite_real (m : Matrix ℝ) : m.IsFinite := fun _ _ _ _ ↦ rfl

/-- A column is passed over only if it is level. -/
theorem varying?_eq_none_iff : varying? m rows j = none ↔ m.IsLevelOver rows j := by
  refine ⟨fun h i hi i' hi' ↦ ?_, varying?_of_isLevelOver (isFinite_real m)⟩
  have hne : m.cellsOver rows j ≠ [] := by
    rw [Matrix.cellsOver, ne_eq, List.map_eq_nil_iff]
    exact List.ne_nil_of_mem hi
  have hfinite : ∀ x ∈ m.cellsOver rows j, Scalar.isFinite x = true := fun _ _ ↦ rfl
  rw [varying?_eq (isFinite_real m) (List.ne_nil_of_mem hi)] at h
  split at h
  · rename_i hle
    have hgreatest := (OrderedScalar.greatest_spec hne hfinite).2 _ (List.mem_map_of_mem hi)
    have hleast := (OrderedScalar.least_spec hne hfinite).2 _ (List.mem_map_of_mem hi')
    exact (sub_le_sub hgreatest hleast).trans hle
  · cases h

/-- A threshold strictly inside of the extent of a column has rows on both of its sides. -/
theorem sides_ne_nil {low high fraction : ℝ} (h : varying? m rows j = some (low, high))
    (hpos : 0 < fraction) (hlt : fraction < 1) :
    rows.filter (goesLeft m j (fraction * (high - low) + low)) ≠ [] ∧
    rows.filter (!goesLeft m j (fraction * (high - low) + low) ·) ≠ [] := by
  have hne : rows ≠ [] := by
    rintro rfl
    cases h
  obtain ⟨below, hbelow, above, habove, hleast, hgreatest⟩ :=
    exists_extremes (j := j) (isFinite_real m) hne
  rw [varying?_eq (isFinite_real m) hne, ← hleast, ← hgreatest] at h
  split at h
  · cases h
  rename_i hvaries
  obtain ⟨rfl, rfl⟩ := Prod.mk.inj (Option.some.inj h)
  generalize hlow : (m.row below).get j = low at *
  generalize hhigh : (m.row above).get j = high at *
  have hextent : 0 < high - low := (LawfulFlatness.nonneg (α := ℝ)).trans_lt (not_le.mp hvaries)
  have hstep : 0 < fraction * (high - low) := mul_pos hpos hextent
  have hstep' : fraction * (high - low) < high - low := mul_lt_of_lt_one_left hextent hlt
  constructor
  · refine List.ne_nil_of_mem (List.mem_filter.mpr ⟨hbelow, ?_⟩)
    rw [goesLeft, decide_eq_true_iff, hlow]
    exact lt_add_of_pos_left low hstep
  · refine List.ne_nil_of_mem (List.mem_filter.mpr ⟨habove, ?_⟩)
    rw [goesLeft, Bool.not_eq_true', decide_eq_false_iff_not, hhigh, not_lt]
    exact (lt_sub_iff_add_lt.mp hstep').le

end Exact

/-! ### Isolation -/

/-- A tree isolates whatever it can: only the height limit and rows that are level end its ways. -/
structure Isolates (m : Matrix α) (sample : List (Fin m.height)) (height : ℕ)
    (tree : IsolationTree α) : Prop where
  /-- The rows that come to a node are those that go through it. -/
  size_eq {position : List Side} {node : IsolationTree α} :
    tree.nodeAt? position = some node → node.size = (through m sample tree position).length
  /-- A node is a leaf exactly at the height limit, and where no column varies over its rows. -/
  leaf_iff {position : List Side} {node : IsolationTree α} :
    tree.nodeAt? position = some node →
      (node = leaf node.size ↔ position.length = height ∨
        ∀ j, m.IsLevelOver (through m sample tree position) j)
  /-- All other nodes separate some rows from others, by a column that varies over their rows. -/
  divides {position : List Side} {node : IsolationTree α} :
    tree.nodeAt? position = some node → node ≠ leaf node.size →
      ∃ (j : Fin m.width) (threshold : α) (left right : IsolationTree α),
        node = .node (some j) threshold node.size left right ∧
        ¬m.IsLevelOver (through m sample tree position) j ∧ 1 ≤ left.size ∧ 1 ≤ right.size

namespace Grows

variable {m : Matrix ℝ} {height : ℕ} {rows : List (Fin m.height)} {tree : IsolationTree ℝ}
  {drawn : List ℝ}

/-- With fractions strictly inside, growing never gets stuck. -/
theorem leaf_or_node (h : Grows m height rows tree drawn) (hdrawn : ∀ f ∈ drawn, 0 < f ∧ f < 1) :
    (tree = leaf rows.length ∧ (height = 0 ∨ ∀ j, m.IsLevelOver rows j)) ∨
    (height ≠ 0 ∧ ∃ (j : Fin m.width) (threshold : ℝ) (left right : IsolationTree ℝ),
      tree = .node (some j) threshold rows.length left right ∧
      ¬m.IsLevelOver rows j ∧ 1 ≤ left.size ∧ 1 ≤ right.size) := by
  cases h with
  | limit => exact .inl ⟨rfl, .inl rfl⟩
  | single hlength =>
    exact .inl ⟨rfl, .inr (Matrix.isLevelOver_of_length_le_one (isFinite_real m) hlength)⟩
  | level hnone => exact .inl ⟨rfl, .inr fun j ↦ varying?_eq_none_iff.mp (hnone j)⟩
  | stuck hvarying hsides =>
    obtain ⟨hpos, hlt⟩ := hdrawn _ (List.mem_singleton_self _)
    obtain ⟨hleft, hright⟩ := sides_ne_nil hvarying hpos hlt
    exact (hsides.elim hleft hright).elim
  | node hvarying hleft hright hgrowsLeft hgrowsRight =>
    refine .inr ⟨Nat.succ_ne_zero _, _, _, _, _, rfl, ?_, ?_, ?_⟩
    · rw [← varying?_eq_none_iff, hvarying]
      exact Option.some_ne_none _
    · exact hgrowsLeft.size_eq ▸ List.length_pos_of_ne_nil hleft
    · exact hgrowsRight.size_eq ▸ List.length_pos_of_ne_nil hright

theorem isolates (h : Grows m height rows tree drawn) (hdrawn : ∀ f ∈ drawn, 0 < f ∧ f < 1) :
    tree.Isolates m rows height where
  size_eq hnode := by
    obtain ⟨_, -, _, -, hgrows⟩ := h.exists_below hnode
    exact hgrows.size_eq
  leaf_iff {position} {node} hnode := by
    obtain ⟨rest, hrest, drawn', hsub, hgrows⟩ := h.exists_below hnode
    have hlimit : position.length = height ↔ rest = 0 := by omega
    rw [hgrows.size_eq, hlimit]
    rcases hgrows.leaf_or_node fun f hf ↦ hdrawn f (hsub hf) with
      ⟨hleaf, hend⟩ | ⟨hne, j, threshold, left, right, rfl, hvaries, hsize, -⟩
    · exact iff_of_true hleaf hend
    · refine iff_of_false nofun ?_
      rintro (hzero | hlevel)
      · exact hne hzero
      · exact hvaries (hlevel j)
  divides hnode hne := by
    obtain ⟨rest, -, drawn', hsub, hgrows⟩ := h.exists_below hnode
    rw [hgrows.size_eq] at hne ⊢
    rcases hgrows.leaf_or_node fun f hf ↦ hdrawn f (hsub hf) with ⟨hleaf, -⟩ | ⟨-, hnode⟩
    · exact absurd hleaf hne
    · exact hnode

end Grows

/-- Where numbers are not rounded and no fraction that is drawn is `0` or `1`, a grown tree isolates
whatever it can, in whatever order the columns are gone through. -/
theorem isolates_grow (draws : Draws σ ℝ) (m : Matrix ℝ) (height : ℕ)
    (sample : List (Fin m.height)) (s : σ)
    (hfractions : ∀ f ∈ fractions draws m height sample s, 0 < f ∧ f < 1) :
    (grow draws m height sample s).1.Isolates m sample height :=
  (grows_fractions draws m height sample s).isolates hfractions

/-- Two rows of which only the second cells differ. -/
noncomputable def twoRows : Matrix ℝ := ⟨2, #[#v[0, 0], #v[0, 1]]⟩

/-- The first column of `twoRows` is level, the second is not. -/
theorem isLevelOver_twoRows_iff {j : Fin twoRows.width} :
    twoRows.IsLevelOver (List.finRange twoRows.height) j ↔ (j : ℕ) = 0 := by
  have hconstant (i : Fin twoRows.height) : (twoRows.row i).get ⟨0, Nat.two_pos⟩ = 0 := by
    match i with
    | ⟨0, _⟩ => rfl
    | ⟨1, _⟩ => rfl
  match j with
  | ⟨0, _⟩ =>
    refine iff_of_true (fun i _ i' _ ↦ ?_) rfl
    rw [hconstant, hconstant]
    exact sub_self_le_flatness rfl
  | ⟨1, _⟩ =>
    refine iff_of_false (fun h ↦ ?_) Nat.one_ne_zero
    have hle : (1 : ℝ) - 0 ≤ 1e-7 :=
      h ⟨1, Nat.one_lt_two⟩ (List.mem_finRange _) ⟨0, Nat.two_pos⟩ (List.mem_finRange _)
    norm_num at hle

/-- The constant column is gone through first. It does not keep the tree from dividing the other
one. -/
theorem isolates_grow_twoRows :
    ((.halving : Draws Unit ℝ).shuffle (List.finRange twoRows.width) ()).1 = [(0 : Fin 2), 1] ∧
    (∀ f ∈ fractions .halving twoRows 1 (List.finRange twoRows.height) (), 0 < f ∧ f < 1) ∧
    ∃ threshold left right, (grow .halving twoRows 1 (List.finRange twoRows.height) ()).1 =
      .node (some 1) threshold 2 left right := by
  have hfractions : ∀ f ∈ fractions .halving twoRows 1 (List.finRange twoRows.height) (),
      0 < f ∧ f < 1 := by
    intro f hf
    obtain ⟨_, rfl⟩ := exists_fraction_eq hf
    show 0 < 1 / ((2 : ℕ) : ℝ) ∧ 1 / ((2 : ℕ) : ℝ) < 1
    norm_num
  refine ⟨rfl, hfractions, ?_⟩
  have hisolates := isolates_grow .halving twoRows 1 (List.finRange twoRows.height) () hfractions
  have hgrows := grows_fractions .halving twoRows 1 (List.finRange twoRows.height) ()
  generalize (grow .halving twoRows 1 (List.finRange twoRows.height) ()).1 = tree at *
  have hroot := nodeAt?_nil hgrows.isPresent
  have hne : tree ≠ leaf tree.size := by
    rw [ne_eq, hisolates.leaf_iff hroot, through_nil, not_or]
    refine ⟨Nat.zero_ne_one, fun h ↦ ?_⟩
    exact Nat.one_ne_zero (isLevelOver_twoRows_iff.mp (h ⟨1, Nat.one_lt_two⟩))
  obtain ⟨j, threshold, left, right, hnode, hvaries, -, -⟩ := hisolates.divides hroot hne
  rw [through_nil, isLevelOver_twoRows_iff] at hvaries
  have hj : (j : ℕ) = 1 := Nat.le_antisymm (Nat.le_of_lt_succ j.isLt) (Nat.pos_of_ne_zero hvaries)
  rw [hgrows.size_eq, hj] at hnode
  exact ⟨threshold, left, right, hnode⟩

end IsolationTree

end OutlierScoring
