import Mathlib
import OutlierScoring.Proofs.Forest.Growth
import OutlierScoring.Proofs.Forest.Persistence
import OutlierScoring.Proofs.Forest.Splits

/-!
# Level rows

A column is level over some rows if no two of them differ by more than `flatness` in it. Growing
asks for the least and the greatest number of a column and for nothing else, and both of them stand
in some row; so a column that is level is never divided (`IsolationTree.varying?_of_isLevelOver`),
and where all columns are level there is nothing but a leaf to be grown
(`IsolationTree.grow_of_isLevelOver`).

A forest over a level matrix consists of equal leaves. All ways down end where they begin, so that
every row has the score of every other (`Forest.scoreRow_of_leaves`), those that the forest was
fitted to included. A quantile of equal numbers is one of them, and rounding keeps it so: what is
interpolated is a difference of equal numbers (`value_of_quantile?_replicate`). Hence nothing is
below the offset (`ForestParams.exists_flagsNothing`).
-/

namespace OutlierScoring

variable {α σ : Type} [Scalar α]

/-! ### Level columns -/

namespace Matrix

/-- No two of the rows differ by more than `flatness` in the column. -/
def IsLevelOver (m : Matrix α) (rows : List (Fin m.height)) (j : Fin m.width) : Prop :=
  ∀ i ∈ rows, ∀ i' ∈ rows, (m.row i).get j - (m.row i').get j ≤ IsolationTree.flatness

/-- No column varies by more than `flatness`. -/
def IsLevel (m : Matrix α) : Prop :=
  ∀ (j : Fin m.width) (i i' : Fin m.height),
    (m.row i).get j - (m.row i').get j ≤ IsolationTree.flatness

theorem IsLevel.isLevelOver {m : Matrix α} (h : m.IsLevel) (rows : List (Fin m.height))
    (j : Fin m.width) : m.IsLevelOver rows j :=
  fun i _ i' _ ↦ h j i i'

/-- The cells of a column in some rows. -/
def cellsOver (m : Matrix α) (rows : List (Fin m.height)) (j : Fin m.width) : List α :=
  rows.map fun i ↦ (m.row i).get j

end Matrix

namespace IsolationTree

/-- If no column varies, none is found, in whatever order they are gone through. -/
theorem findSome?_varying?_eq_none {m : Matrix α} {rows : List (Fin m.height)}
    (h : ∀ j, varying? m rows j = none) (columns : List (Fin m.width)) :
    columns.findSome? (fun j ↦ (varying? m rows j).map (j, ·)) = none := by
  rw [List.findSome?_eq_none_iff]
  intro j _
  rw [h j]
  rfl

section Ordered

variable [OrderedScalar α]

theorem extent_eq {x : α} {xs : List α} (hfinite : ∀ y ∈ x :: xs, Scalar.isFinite y = true) :
    extent x xs = (Scalar.least (x :: xs), Scalar.greatest (x :: xs)) := by
  rw [Scalar.least, Scalar.greatest, OrderedScalar.filter_isNaN hfinite]
  rfl

variable {m : Matrix α} (hfinite : m.IsFinite) {rows : List (Fin m.height)} {j : Fin m.width}

include hfinite

omit [OrderedScalar α] in
theorem isFinite_of_mem_cellsOver : ∀ x ∈ m.cellsOver rows j, Scalar.isFinite x = true := by
  intro x hx
  obtain ⟨i, -, rfl⟩ := List.mem_map.mp hx
  exact hfinite.isFinite_get i j

/-- Growing looks at the least and the greatest number of a column. -/
theorem varying?_eq (hne : rows ≠ []) :
    varying? m rows j =
      if Scalar.greatest (m.cellsOver rows j) - Scalar.least (m.cellsOver rows j) ≤ flatness
      then none
      else some (Scalar.least (m.cellsOver rows j), Scalar.greatest (m.cellsOver rows j)) := by
  obtain ⟨i, is, rfl⟩ := List.exists_cons_of_ne_nil hne
  have hcells : ∀ x ∈ m.cellsOver (i :: is) j, Scalar.isFinite x = true :=
    isFinite_of_mem_cellsOver hfinite
  simp only [varying?, List.map_cons]
  rw [extent_eq hcells]
  rfl

/-- The two numbers that growing looks at stand in some of the rows. -/
theorem exists_extremes (hne : rows ≠ []) :
    ∃ low ∈ rows, ∃ high ∈ rows,
      (m.row low).get j = Scalar.least (m.cellsOver rows j) ∧
      (m.row high).get j = Scalar.greatest (m.cellsOver rows j) := by
  have hcells : m.cellsOver rows j ≠ [] := fun h ↦ hne (List.map_eq_nil_iff.mp h)
  obtain ⟨low, hlow, hleast⟩ := List.mem_map.mp
    (OrderedScalar.least_spec hcells (isFinite_of_mem_cellsOver hfinite)).1
  obtain ⟨high, hhigh, hgreatest⟩ := List.mem_map.mp
    (OrderedScalar.greatest_spec hcells (isFinite_of_mem_cellsOver hfinite)).1
  exact ⟨low, hlow, high, hhigh, hleast, hgreatest⟩

theorem varying?_of_isLevelOver (h : m.IsLevelOver rows j) : varying? m rows j = none := by
  rcases eq_or_ne rows [] with rfl | hne
  · rfl
  obtain ⟨low, hlow, high, hhigh, hleast, hgreatest⟩ := exists_extremes (j := j) hfinite hne
  rw [varying?_eq hfinite hne, if_pos]
  rw [← hleast, ← hgreatest]
  exact h high hhigh low hlow

/-- Where all columns are level, nothing is divided, whatever is drawn. -/
theorem grow_of_isLevelOver (h : ∀ j, m.IsLevelOver rows j) (draws : Draws σ α) (height : Nat)
    (s : σ) : (grow draws m height rows s).1 = leaf rows.length := by
  have hnone (j : Fin m.width) : varying? m rows j = none := varying?_of_isLevelOver hfinite (h j)
  cases height with
  | zero => rfl
  | succ height =>
    rw [grow]
    split
    · rfl
    · simp only [findSome?_varying?_eq_none hnone]

end Ordered

end IsolationTree

/-! ### Rows that are level -/

/-- The extent up to which a column is level is a number that is not negative. -/
class LawfulFlatness (α : Type) [Scalar α] [OrderedScalar α] : Prop where
  isFinite : Scalar.isFinite (IsolationTree.flatness : α) = true
  nonneg : 0 ≤ OrderedScalar.value (IsolationTree.flatness : α)

section Rounded

variable [RoundedScalar α]

open OrderedScalar (value)

/-- A difference of equal numbers is not rounded. -/
theorem isBetween_sub_self {a b : α} (ha : Scalar.isFinite a = true) (hb : Scalar.isFinite b = true)
    (h : value a = value b) : IsBetween 0 0 (a - b) := by
  have hround := RoundedScalar.sub ha hb
  rw [h, sub_self] at hround
  exact hround.isBetween (isExact_zero α) (isExact_zero α) le_rfl le_rfl

variable [LawfulFlatness α]

theorem sub_self_le_flatness {a : α} (ha : Scalar.isFinite a = true) :
    a - a ≤ IsolationTree.flatness := by
  have hzero := isBetween_sub_self ha ha rfl
  rw [OrderedScalar.le_iff hzero.finite LawfulFlatness.isFinite]
  exact hzero.le_high.trans LawfulFlatness.nonneg

namespace Matrix

/-- Where a row stands alone nothing varies. -/
theorem isLevelOver_of_length_le_one {m : Matrix α} (hfinite : m.IsFinite)
    {rows : List (Fin m.height)} (h : rows.length ≤ 1) (j : Fin m.width) :
    m.IsLevelOver rows j := by
  intro i hi i' hi'
  obtain ⟨k, hk, rfl⟩ := List.mem_iff_getElem.mp hi
  obtain ⟨k', hk', rfl⟩ := List.mem_iff_getElem.mp hi'
  obtain rfl : k = k' := by omega
  exact sub_self_le_flatness (hfinite.isFinite_get _ j)

/-- Equal rows are level. -/
theorem isLevel_of_forall_eq {m : Matrix α} (hfinite : m.IsFinite)
    (h : ∀ i i' : Fin m.height, m.row i = m.row i') : m.IsLevel := by
  intro j i i'
  rw [h i i']
  exact sub_self_le_flatness (hfinite.isFinite_get i' j)

/-- A single row is level. -/
theorem isLevel_of_height_eq_one {m : Matrix α} (hfinite : m.IsFinite) (h : m.height = 1) :
    m.IsLevel := by
  refine isLevel_of_forall_eq hfinite fun i i' ↦ ?_
  have hi : i = i' := Fin.ext (by omega)
  rw [hi]

/-- A constant series is level however it is standardized. -/
theorem isLevel_of_transform_replicate {s : Scaler α} {n : ℕ} {x : α} {m : Matrix α}
    (h : s.transform (.ofSeries (List.replicate n x)) = .ok m) (hfinite : m.IsFinite) :
    m.IsLevel := by
  rcases s.transform_ofSeries_cases with ⟨failure, hfail⟩ | ⟨width, row, hrows⟩
  · cases h.symm.trans (hfail _)
  · obtain rfl := Except.ok.inj ((hrows _).symm.trans h)
    have hrow (i : Fin (Matrix.mk width ((List.replicate n x).map row).toArray).height) :
        Matrix.row _ i = row x := by
      have hmem : Matrix.row _ i ∈ (List.replicate n x).map row :=
        List.mem_toArray.mp (Array.getElem_mem i.isLt)
      obtain ⟨y, hy, hrow⟩ := List.mem_map.mp hmem
      rw [← hrow, List.eq_of_mem_replicate hy]
    exact isLevel_of_forall_eq hfinite fun i i' ↦ (hrow i).trans (hrow i').symm

end Matrix

instance : LawfulFlatness ℝ where
  isFinite := rfl
  nonneg := by
    show (0 : ℝ) ≤ 1e-7
    norm_num

instance : LawfulFlatness Float where
  isFinite := by decide +kernel
  nonneg := by
    have hfinite : Scalar.isFinite (IsolationTree.flatness : Float) = true := by decide +kernel
    have hle := (OrderedScalar.le_iff (α := Float) RoundedScalar.isFinite_zero hfinite).mp
      (by decide +kernel)
    rwa [RoundedScalar.value_zero] at hle

instance : LawfulFlatness ForestParams.TabledFloat where
  isFinite := LawfulFlatness.isFinite (α := Float)
  nonneg := LawfulFlatness.nonneg (α := Float)

end Rounded

/-! ### Forests of leaves -/

namespace Forest

/-- The score of every row in a forest of that many leaves. -/
def scoreOfLeaves (α : Type) [Scalar α] (count sampleSize : ℕ) : α :=
  let length : α := 0 + IsolationTree.averagePathLength sampleSize
  scoreOf sampleSize (Scalar.sum (List.replicate count length) / (count : α))

/-- A forest of leaves does not look at its rows. -/
theorem scoreRow_of_leaves {forest : Forest α} {count : ℕ}
    (h : forest.trees = List.replicate count (.leaf forest.sampleSize)) (row : List α) :
    forest.scoreRow row = .ok (scoreOfLeaves α count forest.sampleSize) := by
  have hlengths : forest.trees.mapM (IsolationTree.pathLength? row 0) =
      some (forest.trees.map fun _ ↦ 0 + IsolationTree.averagePathLength forest.sampleSize) := by
    rw [Outcome.mapM_eq_some_iff, List.forall₂_map_right_iff, List.forall₂_same]
    intro tree htree
    obtain rfl := List.eq_of_mem_replicate (h ▸ htree)
    exact IsolationTree.pathLength?_end _ _ _ _ (.inl rfl)
  have hmean : meanPathLength? forest.trees row = some (Scalar.sum (List.replicate count
      (0 + IsolationTree.averagePathLength forest.sampleSize)) / (count : α)) := by
    rw [meanPathLength?, hlengths, h, List.map_replicate, List.length_replicate]
    rfl
  rw [scoreRow, hmean]
  rfl

theorem scores_of_leaves {forest : Forest α} {count : ℕ}
    (h : forest.trees = List.replicate count (.leaf forest.sampleSize)) {probe : Matrix α}
    (hwidth : probe.width = forest.features) (hfinite : probe.IsFinite) :
    forest.scores probe =
      .ok (List.replicate probe.height (scoreOfLeaves α count forest.sampleSize)) := by
  rw [scores_of_finite hwidth (Matrix.ensureFinite_eq_ok_iff.mpr hfinite),
    Outcome.mapM_eq_replicate fun row _ ↦ scoreRow_of_leaves h row.toList]
  rfl

end Forest

section Rounded

variable [RoundedScalar α]

open OrderedScalar (value)

/-- A quantile of equal numbers is as large as they are. -/
theorem value_of_quantile?_replicate {c : α} (hc : IsContamination c) {n : ℕ}
    (hn : n ≤ UInt64.size) {x y : α} (hx : Scalar.isFinite x = true)
    (h : quantile? c (List.replicate n x) = some y) :
    Scalar.isFinite y = true ∧ value y = value x := by
  have hsorted : ascending (List.replicate n x) = List.replicate n x :=
    List.perm_replicate.mp (List.mergeSort_perm _ _)
  rw [quantile?, hsorted] at h
  obtain ⟨low, hlow, h⟩ := Option.bind_eq_some_iff.mp h
  obtain ⟨high, hhigh, h⟩ := Option.bind_eq_some_iff.mp h
  obtain rfl := Option.some.inj h
  obtain rfl : low = x := List.eq_of_mem_replicate (List.mem_of_getElem? hlow)
  obtain rfl : high = low := List.eq_of_mem_replicate (List.mem_of_getElem? hhigh)
  rw [List.length_replicate] at hlow ⊢
  generalize hrank : c * ((n - 1 : ℕ) : α) = rank at hlow ⊢
  have hbetween : IsBetween 0 (2 ^ 64) rank :=
    hrank ▸ quantileRank_isBetween ((contamination_isBetween hc).mono le_rfl (by norm_num)) hn
  have hposition : Scalar.floor rank < n := by
    simpa using (List.getElem?_eq_some_iff.mp hlow).1
  have hpart := rankPart_isBetween hbetween (hposition.le.trans hn)
  -- The difference between the two positions is zero, and so is every share of it.
  have hrise := isBetween_sub_self hx hx rfl
  have hshare : IsBetween 0 0 ((high - high) * (rank - (Scalar.floor rank : α))) := by
    have hround := RoundedScalar.mul hrise.finite hpart.finite
    rw [hrise.value_eq, zero_mul] at hround
    exact hround.isBetween (isExact_zero α) (isExact_zero α) le_rfl le_rfl
  have hsum : IsBetween (value high) (value high)
      (high + (high - high) * (rank - (Scalar.floor rank : α))) := by
    have hround := RoundedScalar.add hx hshare.finite
    rw [hshare.value_eq, add_zero] at hround
    exact hround.isBetween ⟨high, hx, rfl⟩ ⟨high, hx, rfl⟩ le_rfl le_rfl
  exact ⟨hsum.finite, hsum.value_eq⟩

/-- The forest gives all finite rows of its width one and the same score, however they are. It is as
large as the offset, so that no row is above it or below it, and none is an outlier. -/
structure Forest.FlagsNothing (forest : Forest α) (score : α) : Prop where
  isFinite_score : Scalar.isFinite score = true
  isFinite_offset : Scalar.isFinite forest.offset = true
  value_score : value score = value forest.offset
  isFinite_decision : Scalar.isFinite (score - forest.offset) = true
  value_decision : value (score - forest.offset) = 0
  scores_eq {probe : Matrix α} : probe.width = forest.features → probe.IsFinite →
    forest.scores probe = .ok (List.replicate probe.height score)
  decisions_eq {probe : Matrix α} : probe.width = forest.features → probe.IsFinite →
    OutlierModel.decisions forest probe =
      .ok (List.replicate probe.height (score - forest.offset))
  verdicts_eq {probe : Matrix α} : probe.width = forest.features → probe.IsFinite →
    OutlierModel.verdicts forest probe = .ok (List.replicate probe.height .normal)

/-- What is on the offset is not below it. -/
theorem verdictOf_eq_normal {decision : α} (hfinite : Scalar.isFinite decision = true)
    (hvalue : value decision = 0) : OutlierModel.verdictOf decision = .normal := by
  rw [OutlierModel.verdictOf, if_neg]
  rw [OrderedScalar.lt_iff hfinite RoundedScalar.isFinite_zero, hvalue, RoundedScalar.value_zero]
  exact lt_irrefl 0

/-- All of this is known from the scores. -/
theorem Forest.flagsNothing_of_scores_eq {forest : Forest α} {score : α}
    (hscore : Scalar.isFinite score = true) (hoffset : Scalar.isFinite forest.offset = true)
    (hvalue : value score = value forest.offset)
    (hscores : ∀ probe : Matrix α, probe.width = forest.features → probe.IsFinite →
      forest.scores probe = .ok (List.replicate probe.height score)) :
    forest.FlagsNothing score := by
  have hdecision := isBetween_sub_self hscore hoffset hvalue
  refine ⟨hscore, hoffset, hvalue, hdecision.finite, hdecision.value_eq, hscores _, ?_, ?_⟩
  · intro probe hwidth hfinite
    rw [decisions_eq, hscores probe hwidth hfinite]
    exact congrArg Except.ok List.map_replicate
  · intro probe hwidth hfinite
    rw [verdicts_of_scores (hscores probe hwidth hfinite), List.map_replicate,
      verdictOf_eq_normal hdecision.finite hdecision.value_eq]

/-! ### Fitted forests -/

namespace ForestParams

variable {chance : Chance σ α} (hdistinct : chance.draws.SamplesDistinct) {p : ForestParams α}
  {m : Matrix α} (hfinite : m.IsFinite) (hlevel : m.IsLevel)

include hdistinct hfinite hlevel

/-- Whatever is drawn, all trees over a level matrix are leaves. -/
theorem trees_of_isLevel : (p.grow chance m).trees =
    List.replicate p.estimators (.leaf (min p.sampleLimit m.height)) := by
  have htree (i : ℕ) : growTree chance p m (min p.sampleLimit m.height) i =
      .leaf (min p.sampleLimit m.height) := by
    have hsample := hdistinct (Nat.min_le_right p.sampleLimit m.height) (chance.start (p.seed i))
    show (IsolationTree.grow chance.draws m _ _ _).1 = _
    rw [IsolationTree.grow_of_isLevelOver hfinite (hlevel.isLevelOver _), hsample.length_eq]
  show (List.range p.estimators).map (growTree chance p m (min p.sampleLimit m.height)) = _
  rw [funext htree, List.map_const', List.length_range]

/-- A forest can be fitted to a level matrix by all parameters that are accepted, and it finds
nothing. Counts of rows and trees are machine words. -/
theorem exists_flagsNothing [LawfulFunctions α] [LawfulRanks α]
    (hc : IsContamination p.contamination) (hcounts : p.checkCounts = .ok ())
    (hestimators : p.estimators < UInt64.size) (hpos : 0 < m.height)
    (hheight : m.height < UInt64.size) :
    ∃ forest score, p.fit chance m = .ok forest ∧
      forest.trees = List.replicate p.estimators (.leaf (min p.sampleLimit m.height)) ∧
      forest.features = m.width ∧ forest.FlagsNothing score := by
  have htrees := trees_of_isLevel hdistinct hfinite hlevel (p := p)
  have hall : (p.grow chance m).scores m = .ok (List.replicate m.height
      (Forest.scoreOfLeaves α p.estimators (min p.sampleLimit m.height))) :=
    Forest.scores_of_leaves htrees rfl hfinite
  obtain ⟨scores, offset, hscores, hne, hoffset, hfit⟩ :
      ∃ scores offset, (p.grow chance m).scores m = .ok scores ∧ scores ≠ [] ∧
        quantile? p.contamination scores = some offset ∧
          p.fit chance m = .ok { p.grow chance m with offset } :=
    exists_fit_eq_ok hc hcounts hpos (Matrix.ensureFinite_eq_ok_iff.mpr hfinite)
  obtain rfl := Except.ok.inj (hall.symm.trans hscores)
  have hsize : min p.sampleLimit m.height < UInt64.size :=
    (Nat.min_le_right p.sampleLimit m.height).trans_lt hheight
  have hscore : IsBetween (-1) 0
      (Forest.scoreOfLeaves α p.estimators (min p.sampleLimit m.height)) := by
    refine Forest.scores_isBetween hscores ?_ ?_ hsize ?_ _
      (List.mem_replicate.mpr ⟨hpos.ne', rfl⟩)
    · rw [htrees]
      simpa using (checkCounts_eq_ok_iff.mp hcounts).1
    · rw [htrees, List.length_replicate]
      exact hestimators
    · intro tree htree
      obtain rfl := List.eq_of_mem_replicate (htrees ▸ htree)
      exact ⟨nofun, RoundedScalar.isFinite_zero, hsize, trivial, trivial⟩
  obtain ⟨hfiniteOffset, hvalue⟩ := value_of_quantile?_replicate hc hheight.le hscore.finite hoffset
  have htrees' : ({ p.grow chance m with offset } : Forest α).trees =
      List.replicate p.estimators (.leaf (min p.sampleLimit m.height)) := htrees
  exact ⟨_, _, hfit, htrees', rfl, Forest.flagsNothing_of_scores_eq hscore.finite hfiniteOffset
    hvalue.symm fun _ hwidth hprobe ↦ Forest.scores_of_leaves htrees' hwidth hprobe⟩

end ForestParams

end Rounded

end OutlierScoring
