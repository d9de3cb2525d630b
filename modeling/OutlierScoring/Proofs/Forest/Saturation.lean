import OutlierScoring.Proofs.Forest.Splits
import OutlierScoring.Proofs.Number.Arithmetic

/-!
# Rows outside of the training data

A forest does not tell apart what lies outside of its training data. All thresholds of a column are
inside of it (`IsGrownOver.splitsWithin`), so that a number below the least one of the column is
below the same thresholds as that one, and a number above the greatest one is below the same
thresholds as that one, which are none. A row can therefore be moved into the extents of the columns
without any tree taking notice of it.
-/

namespace OutlierScoring

variable {α σ : Type} [Scalar α]

/-- The number, moved to the nearest of two bounds if it lies outside of them. -/
def Scalar.clamp (low high x : α) : α :=
  if x < low then low else if high < x then high else x

/-- The row with every cell moved into the extent of its column. -/
def Matrix.clampRow (m : Matrix α) (row : Vector α m.width) : Vector α m.width :=
  Vector.ofFn fun j ↦
    Scalar.clamp (Scalar.least (m.column j)) (Scalar.greatest (m.column j)) (row.get j)

namespace IsolationTree

/-- No division tells the two rows apart: each has the column in both of them, and has either both
cells below the threshold or none. -/
def IsBlindTo (row row' : List α) (tree : IsolationTree α) : Prop :=
  tree.ForallSplits fun j threshold ↦
    ∃ x x', row[j]? = some x ∧ row'[j]? = some x' ∧ (x < threshold ↔ x' < threshold)

/-- Rows that are not told apart have ways of one length. -/
theorem IsBlindTo.pathLength?_eq {row row' : List α} {tree : IsolationTree α}
    (h : tree.IsBlindTo row row') (depth : α) :
    pathLength? row depth tree = pathLength? row' depth tree := by
  induction tree generalizing depth with
  | absent => rw [pathLength?, pathLength?]
  | node feature threshold size left right hleft hright =>
    by_cases hends : feature = none ∨ left = .absent ∨ right = .absent
    · rw [pathLength?_end row depth threshold size hends,
        pathLength?_end row' depth threshold size hends]
    · obtain ⟨j, rfl⟩ := Option.ne_none_iff_exists'.mp fun h ↦ hends (.inl h)
      have hl := isPresent_of_ne_absent fun h ↦ hends (.inr (.inl h))
      have hr := isPresent_of_ne_absent fun h ↦ hends (.inr (.inr h))
      obtain ⟨x, x', hx, hx', hside⟩ := h.1 j rfl
      rw [pathLength?_node row depth j threshold size hl hr,
        pathLength?_node row' depth j threshold size hl hr, hx, hx', Option.bind_some,
        Option.bind_some, hleft h.2.1, hright h.2.2]
      simp only [hside]

end IsolationTree

/-- Rows that no tree tells apart have one score. -/
theorem Forest.scoreRow_eq_of_isBlindTo {forest : Forest α} {row row' : List α}
    (h : ∀ tree ∈ forest.trees, tree.IsBlindTo row row') :
    forest.scoreRow row = forest.scoreRow row' := by
  have hlengths : forest.trees.mapM (IsolationTree.pathLength? row 0) =
      forest.trees.mapM (IsolationTree.pathLength? row' 0) :=
    Outcome.mapM_congr fun tree htree ↦ (h tree htree).pathLength?_eq 0
  rw [scoreRow, scoreRow, meanPathLength?, meanPathLength?, hlengths]

/-! ### Moving into the extents -/

section Ordered

variable [OrderedScalar α]

open OrderedScalar (value)

omit [OrderedScalar α] in
theorem Scalar.isFinite_clamp {low high x : α} (hlow : isFinite low = true)
    (hhigh : isFinite high = true) (hx : isFinite x = true) :
    isFinite (clamp low high x) = true := by
  rw [clamp]
  split
  · exact hlow
  · split
    · exact hhigh
    · exact hx

/-- Between the bounds a threshold does not notice that a number was moved. -/
theorem Scalar.clamp_lt_iff {low high x threshold : α} (hlow : isFinite low = true)
    (hhigh : isFinite high = true) (hx : isFinite x = true) (habove : low < threshold)
    (hbelow : ¬high < threshold) : clamp low high x < threshold ↔ x < threshold := by
  have ht := OrderedScalar.isFinite_of_between hlow hhigh habove hbelow
  rw [clamp]
  split
  · rename_i hless
    rw [OrderedScalar.lt_iff hx hlow] at hless
    rw [OrderedScalar.lt_iff hlow ht] at habove
    rw [OrderedScalar.lt_iff hlow ht, OrderedScalar.lt_iff hx ht]
    exact ⟨fun _ ↦ hless.trans habove, fun _ ↦ habove⟩
  · split
    · rename_i hgreater
      rw [OrderedScalar.lt_iff hhigh hx] at hgreater
      rw [OrderedScalar.lt_iff hhigh ht, not_lt] at hbelow
      rw [OrderedScalar.lt_iff hhigh ht, OrderedScalar.lt_iff hx ht]
      exact ⟨fun h ↦ absurd h (not_lt.mpr hbelow),
        fun h ↦ absurd h (not_lt.mpr (hbelow.trans hgreater.le))⟩
    · exact Iff.rfl

variable {m : Matrix α} (hfinite : m.IsFinite) (hheight : 0 < m.height)

include hfinite hheight

theorem Matrix.isFinite_extremes (j : Fin m.width) :
    Scalar.isFinite (Scalar.least (m.column j)) = true ∧
      Scalar.isFinite (Scalar.greatest (m.column j)) = true := by
  have hne := column_ne_nil hheight j
  have hcolumn := hfinite.isFinite_column j
  exact ⟨hcolumn _ (OrderedScalar.least_spec hne hcolumn).1,
    hcolumn _ (OrderedScalar.greatest_spec hne hcolumn).1⟩

theorem Matrix.isFinite_clampRow {row : Vector α m.width}
    (hrow : ∀ x ∈ row.toList, Scalar.isFinite x = true) :
    ∀ x ∈ (m.clampRow row).toList, Scalar.isFinite x = true := by
  intro x hx
  rw [clampRow, Vector.toList_ofFn] at hx
  obtain ⟨j, rfl⟩ := List.mem_ofFn.mp hx
  obtain ⟨hlow, hhigh⟩ := isFinite_extremes hfinite hheight j
  exact Scalar.isFinite_clamp hlow hhigh
    (hrow _ (Vector.mem_toList_iff.mpr (Vector.getElem_mem j.isLt)))

/-- A tree whose thresholds are inside of the columns does not notice that a row was moved there. -/
theorem IsolationTree.isBlindTo_clampRow {tree : IsolationTree α}
    (h : tree.ForallSplits (IsInside m)) {row : Vector α m.width}
    (hrow : ∀ x ∈ row.toList, Scalar.isFinite x = true) :
    tree.IsBlindTo (m.clampRow row).toList row.toList := by
  refine h.mono fun j threshold ⟨hj, habove, hbelow⟩ ↦ ?_
  obtain ⟨hlow, hhigh⟩ := m.isFinite_extremes hfinite hheight ⟨j, hj⟩
  have hx : Scalar.isFinite (row.get ⟨j, hj⟩) = true :=
    hrow _ (Vector.mem_toList_iff.mpr (Vector.getElem_mem hj))
  refine ⟨_, _, getElem?_toList _ ⟨j, hj⟩, getElem?_toList _ ⟨j, hj⟩, ?_⟩
  have hclamp : (m.clampRow row).get ⟨j, hj⟩ = Scalar.clamp (Scalar.least (m.column ⟨j, hj⟩))
      (Scalar.greatest (m.column ⟨j, hj⟩)) (row.get ⟨j, hj⟩) := by
    show (m.clampRow row)[j] = _
    rw [Matrix.clampRow, Vector.getElem_ofFn]
  rw [hclamp]
  exact Scalar.clamp_lt_iff hlow hhigh hx habove hbelow

/-- Beyond the greatest number of the only column there are no thresholds. -/
theorem IsolationTree.isBlindTo_beyond {tree : IsolationTree α}
    (h : tree.ForallSplits (IsInside m)) (hwidth : m.width = 1) {x y : α}
    (hx : Scalar.isFinite x = true) (hy : Scalar.isFinite y = true)
    (hx' : ¬x < Scalar.greatest (m.column ⟨0, hwidth ▸ Nat.one_pos⟩))
    (hy' : ¬y < Scalar.greatest (m.column ⟨0, hwidth ▸ Nat.one_pos⟩)) :
    tree.IsBlindTo [x] [y] := by
  refine h.mono fun j threshold hinside ↦ ?_
  have ht := hinside.isFinite hfinite hheight
  obtain ⟨hj, -, hbelow⟩ := hinside
  obtain rfl : j = 0 := by omega
  obtain ⟨-, hhigh⟩ := m.isFinite_extremes hfinite hheight ⟨0, hj⟩
  rw [OrderedScalar.lt_iff hx hhigh, not_lt] at hx'
  rw [OrderedScalar.lt_iff hy hhigh, not_lt] at hy'
  rw [OrderedScalar.lt_iff hhigh ht, not_lt] at hbelow
  refine ⟨x, y, rfl, rfl, ?_⟩
  rw [OrderedScalar.lt_iff hx ht, OrderedScalar.lt_iff hy ht]
  exact iff_of_false (not_lt.mpr (hbelow.trans hx')) (not_lt.mpr (hbelow.trans hy'))

end Ordered

/-! ### Fitted forests -/

namespace ForestParams

variable [OrderedScalar α] {chance : Chance σ α} {p : ForestParams α} {m : Matrix α}
  {forest : Forest α}

/-- Rows that are moved into the extents of the training data keep their scores. -/
theorem scores_map_clampRow (h : p.fit chance m = .ok forest) {probe : Array (Vector α m.width)}
    (hprobe : (⟨m.width, probe⟩ : Matrix α).ensureFinite = .ok ()) :
    forest.scores ⟨m.width, probe.map m.clampRow⟩ = forest.scores ⟨m.width, probe⟩ := by
  obtain ⟨hheight, hfinite⟩ := isFinite_of_fit h
  have hwidth := (features_of_fit h).symm
  have hcells : ∀ row ∈ probe.toList, ∀ x ∈ row.toList, Scalar.isFinite x = true :=
    Matrix.ensureFinite_eq_ok_iff.mp hprobe
  have hclamped : (⟨m.width, probe.map m.clampRow⟩ : Matrix α).ensureFinite = .ok () := by
    rw [Matrix.ensureFinite_eq_ok_iff]
    intro clamped hclamped
    obtain ⟨row, hrow, rfl⟩ := Array.mem_map.mp (Array.mem_toList_iff.mp hclamped)
    exact Matrix.isFinite_clampRow hfinite hheight (hcells row (Array.mem_toList_iff.mpr hrow))
  rw [Forest.scores_of_finite (m := ⟨m.width, probe.map m.clampRow⟩) hwidth hclamped,
    Forest.scores_of_finite (m := ⟨m.width, probe⟩) hwidth hprobe]
  show (probe.map m.clampRow).toList.mapM _ = probe.toList.mapM _
  rw [Array.toList_map, List.mapM_map]
  refine Outcome.mapM_congr fun row hrow ↦ Forest.scoreRow_eq_of_isBlindTo fun tree htree ↦ ?_
  exact IsolationTree.isBlindTo_clampRow hfinite hheight (splitsWithin_of_fit h tree htree)
    (hcells row hrow)

/-- In a single column, all numbers that are not below the greatest one have its score. -/
theorem scoreRow_beyond (h : p.fit chance m = .ok forest) (hwidth : m.width = 1) {x : α}
    (hx : Scalar.isFinite x = true)
    (hbeyond : ¬x < Scalar.greatest (m.column ⟨0, hwidth ▸ Nat.one_pos⟩)) :
    forest.scoreRow [x] =
      forest.scoreRow [Scalar.greatest (m.column ⟨0, hwidth ▸ Nat.one_pos⟩)] := by
  obtain ⟨hheight, hfinite⟩ := isFinite_of_fit h
  obtain ⟨-, hgreatest⟩ := m.isFinite_extremes hfinite hheight ⟨0, hwidth ▸ Nat.one_pos⟩
  have hself : ¬Scalar.greatest (m.column ⟨0, hwidth ▸ Nat.one_pos⟩) <
      Scalar.greatest (m.column ⟨0, hwidth ▸ Nat.one_pos⟩) := by
    rw [OrderedScalar.lt_iff hgreatest hgreatest]
    exact lt_irrefl _
  exact Forest.scoreRow_eq_of_isBlindTo fun tree htree ↦ IsolationTree.isBlindTo_beyond hfinite
    hheight (splitsWithin_of_fit h tree htree) hwidth hx hgreatest hbeyond hself

/-- A fitted forest gives finite rows the scores and the verdicts of the rows that are moved into
the extents of the training data. Where there is one column only, all numbers that are not below the
greatest one of it have the same score. -/
theorem saturates_of_fit (h : p.fit chance m = .ok forest) :
    (∀ probe : Array (Vector α m.width), (⟨m.width, probe⟩ : Matrix α).ensureFinite = .ok () →
      ∃ scores verdicts,
        forest.scores ⟨m.width, probe⟩ = .ok scores ∧
        forest.scores ⟨m.width, probe.map m.clampRow⟩ = .ok scores ∧
        OutlierModel.verdicts forest ⟨m.width, probe⟩ = .ok verdicts ∧
        OutlierModel.verdicts forest ⟨m.width, probe.map m.clampRow⟩ = .ok verdicts) ∧
    ∀ hwidth : m.width = 1, ∃ score, ∀ series : List α,
      (∀ x ∈ series, Scalar.isFinite x = true ∧
        ¬x < Scalar.greatest (m.column ⟨0, hwidth ▸ Nat.one_pos⟩)) →
      forest.scores (.ofSeries series) = .ok (List.replicate series.length score) := by
  refine ⟨fun probe hprobe ↦ ?_, fun hwidth ↦ ?_⟩
  · obtain ⟨scores, hscores⟩ := (splitsInside_of_fit h).exists_scores_eq_ok
      (m := ⟨m.width, probe⟩) (features_of_fit h).symm hprobe
    have hclamped := (scores_map_clampRow h hprobe).trans hscores
    exact ⟨scores, _, hscores, hclamped, Forest.verdicts_of_scores hscores,
      Forest.verdicts_of_scores hclamped⟩
  · have hfeatures := (features_of_fit h).trans hwidth
    obtain ⟨score, hscore⟩ := (forest.exists_scoreRow_eq_ok_iff _).mpr
      ((splitsInside_of_fit h).not_strays hfeatures
        (Scalar.greatest (m.column ⟨0, hwidth ▸ Nat.one_pos⟩)))
    refine ⟨score, fun series hseries ↦ ?_⟩
    have hsame : ∀ x ∈ series, forest.scoreRow [x] = .ok score := fun x hx ↦
      (scoreRow_beyond h hwidth (hseries x hx).1 (hseries x hx).2).trans hscore
    rw [Forest.scores_ofSeries hfeatures,
      findIdx?_eq_none_of_finite fun x hx ↦ (hseries x hx).1]
    exact Outcome.mapM_eq_replicate hsame

/-- The forest of two trees over the floats `0` and `1` takes numbers outside of them for these. -/
theorem saturates_of_fit_pair : ∃ forest score scores,
    twoTrees.fit Keystream.chance (.ofSeries [(0 : Float), 1]) = .ok forest ∧
    forest.scores (.ofSeries [-3, 0.5, 2]) = .ok scores ∧
    forest.scores (.ofSeries [0, 0.5, 1]) = .ok scores ∧
    forest.scores (.ofSeries [1, 2, 1e300]) = .ok [score, score, score] := by
  obtain ⟨forest, hfit⟩ := exists_fit_pair_float
  obtain ⟨hprobes, hbeyond⟩ := saturates_of_fit hfit
  have hfinite : (Matrix.ofSeries [(-3 : Float), 0.5, 2]).ensureFinite = .ok () := by
    rw [Matrix.ensureFinite_ofSeries]
    rfl
  have hclamped : #[#v[(-3 : Float)], #v[0.5], #v[2]].map
      (Matrix.ofSeries [(0 : Float), 1]).clampRow = #[#v[0], #v[0.5], #v[1]] :=
    List.map_toArray.trans (congrArg List.toArray rfl)
  obtain ⟨scores, -, hscores, hsame, -, -⟩ := hprobes #[#v[-3], #v[0.5], #v[2]] hfinite
  have hclamped := congrArg (fun rows ↦ forest.scores ⟨1, rows⟩) hclamped
  obtain ⟨score, hscore⟩ := hbeyond rfl
  refine ⟨forest, score, scores, hfit, hscores, hclamped.symm.trans hsame,
    hscore [1, 2, 1e300] ?_⟩
  decide +kernel

end ForestParams

end OutlierScoring
