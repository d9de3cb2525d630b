import OutlierScoring.Proofs.Forest.Descent
import OutlierScoring.Proofs.Forest.Ranks
import OutlierScoring.Proofs.Series

/-!
# Scores of a forest

A forest scores the rows of a finite matrix of its width, one by one, and a row has a score unless
it strays in one of the trees (`exists_scoreRow_eq_ok_iff`). A fitted forest has a score for every
row (`exists_scores_eq_ok`).

The fit is taken apart here into what the contamination has a say in and what not. Trees are grown
and the rows of the matrix are scored without it (`trainingScores`); only the offset is settled by
it (`fit_eq`), and no score looks at the offset (`Forest.IsTwin`).
-/

namespace OutlierScoring

variable {α σ : Type} [Scalar α]

namespace Forest

/-! ### Rows -/

theorem meanPathLength?_eq_none_iff (trees : List (IsolationTree α)) (row : List α) :
    meanPathLength? trees row = none ↔ ∃ tree ∈ trees, tree.Strays row := by
  have hlengths : trees.mapM (IsolationTree.pathLength? row 0) = none ↔
      ∃ tree ∈ trees, tree.Strays row := by
    induction trees with
    | nil => exact ⟨nofun, nofun⟩
    | cons tree trees ih =>
      simp only [List.mapM_cons, List.mem_cons, exists_eq_or_imp]
      rw [← ih, ← tree.pathLength?_eq_none_iff row 0]
      rcases tree.pathLength? row 0 with _ | length
      · simp
      · rcases trees.mapM (IsolationTree.pathLength? row 0) with _ | lengths
        · simp
        · simp
  rw [meanPathLength?, ← hlengths]
  rcases trees.mapM (IsolationTree.pathLength? row 0) with _ | lengths
  · simp
  · simp

/-- A row has a score unless it strays in one of the trees. -/
theorem exists_scoreRow_eq_ok_iff (forest : Forest α) (row : List α) :
    (∃ score, forest.scoreRow row = .ok score) ↔ ¬∃ tree ∈ forest.trees, tree.Strays row := by
  rw [← meanPathLength?_eq_none_iff, scoreRow]
  rcases meanPathLength? forest.trees row with _ | meanLength
  · exact ⟨nofun, fun h ↦ absurd rfl h⟩
  · exact ⟨fun _ ↦ nofun, fun _ ↦ ⟨_, rfl⟩⟩

/-- The only way in which a row cannot be scored. -/
theorem scoreRow_eq_error {forest : Forest α} {row : List α} {failure : Failure α}
    (h : forest.scoreRow row = .error failure) : failure = .breach .featureOutOfRange := by
  rw [scoreRow] at h
  split at h
  · exact absurd h nofun
  · exact (Except.error.inj h).symm

/-! ### Matrices -/

theorem scores_eq (forest : Forest α) (m : Matrix α) :
    forest.scores m =
      if m.width ≠ forest.features then .error (.featureCountMismatch forest.features m.width)
      else m.ensureFinite >>= fun _ ↦ m.rows.toList.mapM fun row ↦ forest.scoreRow row.toList := by
  rw [scores]
  split <;> rfl

theorem scores_of_finite {forest : Forest α} {m : Matrix α} (hwidth : m.width = forest.features)
    (hfinite : m.ensureFinite = .ok ()) :
    forest.scores m = m.rows.toList.mapM fun row ↦ forest.scoreRow row.toList := by
  rw [scores_eq, if_neg fun h ↦ h hwidth, hfinite]
  rfl

/-- There is a score for each row. -/
theorem length_of_scores {forest : Forest α} {m : Matrix α} {scores : List α}
    (h : forest.scores m = .ok scores) : scores.length = m.height := by
  rw [scores_eq] at h
  split at h
  · exact absurd h nofun
  · obtain ⟨_, -, h⟩ := Outcome.exists_of_bind_eq_ok h
    exact (Outcome.length_of_mapM h).trans Array.length_toList

/-- All trees divide columns that the forest was fitted to. -/
def SplitsInside (forest : Forest α) : Prop :=
  ∀ tree ∈ forest.trees, tree.SplitsBelow forest.features

theorem SplitsInside.exists_scores_eq_ok {forest : Forest α} (h : forest.SplitsInside)
    {m : Matrix α} (hwidth : m.width = forest.features) (hfinite : m.ensureFinite = .ok ()) :
    ∃ scores, forest.scores m = .ok scores := by
  rw [scores_of_finite hwidth hfinite]
  refine Outcome.exists_mapM_eq_ok fun row _ ↦ ?_
  rw [exists_scoreRow_eq_ok_iff]
  rintro ⟨tree, htree, hstrays⟩
  have hlength : row.toList.length = forest.features := by rw [Vector.length_toList, hwidth]
  exact (hlength ▸ h tree htree).not_strays hstrays

/-! ### Decisions -/

theorem decisions_eq (forest : Forest α) (m : Matrix α) :
    OutlierModel.decisions forest m = (forest.scores m).map (List.map (· - forest.offset)) := by
  rw [OutlierModel.decisions]
  show forest.scores m >>= _ = _
  rcases forest.scores m with failure | scores
  · rfl
  · rfl

theorem verdicts_eq (forest : Forest α) (m : Matrix α) : OutlierModel.verdicts forest m =
    (OutlierModel.decisions forest m).map (List.map OutlierModel.verdictOf) := by
  rw [OutlierModel.verdicts]
  rcases OutlierModel.decisions forest m with failure | decisions
  · rfl
  · rfl

/-- Verdicts are read off the scores. -/
theorem verdicts_of_scores {forest : Forest α} {m : Matrix α} {scores : List α}
    (h : forest.scores m = .ok scores) : OutlierModel.verdicts forest m =
      .ok (scores.map fun score ↦ OutlierModel.verdictOf (score - forest.offset)) := by
  rw [verdicts_eq, decisions_eq, h]
  simp only [Except.map, List.map_map]
  rfl

/-! ### Series -/

/-- The entries of a series are scored one by one. -/
theorem scores_ofSeries {forest : Forest α} (hfeatures : forest.features = 1)
    (series : List α) :
    forest.scores (.ofSeries series) =
      match series.findIdx? (!Scalar.isFinite ·) with
      | some row => .error (.nonFiniteValue row 0)
      | none => series.mapM fun x ↦ forest.scoreRow [x] := by
  have hrows : (Matrix.ofSeries series).rows.toList.mapM (fun row ↦ forest.scoreRow row.toList) =
      series.mapM fun x ↦ forest.scoreRow [x] :=
    List.mapM_map (f := fun x ↦ #v[x]) (g := fun row : Vector α 1 ↦ forest.scoreRow row.toList)
  rw [scores_eq, hfeatures, if_neg (not_not_intro (Matrix.width_ofSeries series)),
    Matrix.ensureFinite_ofSeries, hrows]
  rcases series.findIdx? (!Scalar.isFinite ·) with _ | row
  · rfl
  · rfl

/-- No number on its own strays where the first column is the only one to be divided. -/
theorem SplitsInside.not_strays {forest : Forest α} (h : forest.SplitsInside)
    (hfeatures : forest.features = 1) (x : α) : ¬∃ tree ∈ forest.trees, tree.Strays [x] := by
  rintro ⟨tree, htree, hstrays⟩
  have hlength : [x].length = forest.features := hfeatures.symm
  exact (hlength ▸ h tree htree).not_strays hstrays

theorem SplitsInside.exists_mapM_eq_ok {forest : Forest α} (h : forest.SplitsInside)
    (hfeatures : forest.features = 1) (series : List α) :
    ∃ scores, series.mapM (fun x ↦ forest.scoreRow [x]) = .ok scores :=
  Outcome.exists_mapM_eq_ok fun x _ ↦
    (forest.exists_scoreRow_eq_ok_iff [x]).mpr (h.not_strays hfeatures x)

/-! ### Twins -/

/-- The forests have the same trees and the same scores, and differ in their offset and in the
contamination at most. -/
structure IsTwin (forest twin : Forest α) : Prop where
  trees : twin.trees = forest.trees
  sampleSize : twin.sampleSize = forest.sampleSize
  features : twin.features = forest.features

theorem IsTwin.scores_eq {forest twin : Forest α} (h : forest.IsTwin twin) :
    twin.scores = forest.scores := by
  funext m
  have hrow (row : List α) : twin.scoreRow row = forest.scoreRow row := by
    rw [scoreRow, scoreRow, h.trees, h.sampleSize]
  rw [Forest.scores_eq, Forest.scores_eq, h.features]
  simp only [hrow]

end Forest

namespace ForestParams

/-! ### Growing -/

variable (chance : Chance σ α) (p : ForestParams α) (m : Matrix α)

theorem splitsInside_grow : (p.grow chance m).SplitsInside := by
  intro tree htree
  obtain ⟨i, -, rfl⟩ := List.mem_map.mp htree
  exact IsolationTree.splitsBelow_grow _ _ _ _ _

/-- What the counts among the parameters are refused for, the contamination left aside. -/
def checkCounts : Outcome α Unit := do
  if p.estimators = 0 then throw (.invalidParameter .estimators 0)
  if p.workers = some 0 then throw (.invalidParameter .workers 0)
  if p.sampleLimit = 0 then throw (.invalidParameter .sampleLimit 0)

/-- The scores of the rows that a forest is grown over. -/
def trainingScores : Outcome α (List α) := do
  p.checkCounts
  if m.height = 0 then throw .emptySeries
  m.ensureFinite
  (p.grow chance m).scores m

theorem check_eq : p.check = checkContamination p.contamination >>= fun _ ↦ p.checkCounts := rfl

/-- The contamination is needed twice only: it is checked first, and it settles the offset last. -/
theorem fit_eq : p.fit chance m =
    checkContamination p.contamination >>= fun _ ↦ trainingScores chance p m >>= fun scores ↦
      match quantile? p.contamination scores with
      | some offset => .ok { p.grow chance m with offset }
      | none => .error (.breach .rankOutOfRange) := by
  rw [fit, check_eq]
  rcases checkContamination p.contamination with failure | _
  · rfl
  show (p.checkCounts >>= fun _ ↦ _) = trainingScores chance p m >>= _
  rw [trainingScores]
  rcases p.checkCounts with failure | _
  · rfl
  by_cases hheight : m.height = 0
  · simp only [hheight, if_true]
    rfl
  simp only [hheight, if_false]
  show (m.ensureFinite >>= fun _ ↦ _) = (m.ensureFinite >>= fun _ ↦ _) >>= _
  rcases m.ensureFinite with failure | _
  · rfl
  show ((p.grow chance m).scores m >>= fun _ ↦ _) = ((p.grow chance m).scores m >>= fun _ ↦ _)
  rcases (p.grow chance m).scores m with failure | scores
  · rfl
  simp only [bind, Except.bind]
  rcases quantile? p.contamination scores with _ | offset
  · rfl
  · rfl

/-- Neither do the scores of the training rows depend on it. -/
theorem trainingScores_congr (contamination : α) :
    trainingScores chance { p with contamination } m = trainingScores chance p m := by
  have htwin : (p.grow chance m).IsTwin ({ p with contamination }.grow chance m) := ⟨rfl, rfl, rfl⟩
  rw [trainingScores, trainingScores, htwin.scores_eq]
  rfl

/-- A detector passes the contamination on to the fit. -/
theorem detector_fit_eq {contamination : α} (hc : IsContamination contamination) :
    (p.detector chance).fit m contamination = trainingScores chance p m >>= fun scores ↦
      match quantile? contamination scores with
      | some offset => .ok { p.grow chance m with contamination, offset }
      | none => .error (.breach .rankOutOfRange) := by
  show fit chance { p with contamination } m = _
  rw [fit_eq, trainingScores_congr, checkContamination, if_pos hc]
  rfl

variable {chance p m}

/-- The counts can be used unless one of them is zero. -/
theorem checkCounts_eq_ok_iff : p.checkCounts = .ok () ↔
    p.estimators ≠ 0 ∧ p.workers ≠ some 0 ∧ p.sampleLimit ≠ 0 := by
  rw [checkCounts]
  by_cases hestimators : p.estimators = 0
  · rw [if_pos hestimators]
    exact ⟨nofun, fun h ↦ absurd hestimators h.1⟩
  by_cases hworkers : p.workers = some 0
  · rw [if_neg hestimators, if_pos hworkers]
    exact ⟨nofun, fun h ↦ absurd hworkers h.2.1⟩
  by_cases hlimit : p.sampleLimit = 0
  · rw [if_neg hestimators, if_neg hworkers, if_pos hlimit]
    exact ⟨nofun, fun h ↦ absurd hlimit h.2.2⟩
  rw [if_neg hestimators, if_neg hworkers, if_neg hlimit]
  exact ⟨fun _ ↦ ⟨hestimators, hworkers, hlimit⟩, fun _ ↦ rfl⟩

/-- Scores are there only for a matrix that has rows and is finite, and they are those of the grown
forest. -/
theorem exists_of_trainingScores_eq_ok {scores : List α}
    (h : trainingScores chance p m = .ok scores) :
    0 < m.height ∧ m.ensureFinite = .ok () ∧ (p.grow chance m).scores m = .ok scores := by
  rw [trainingScores] at h
  obtain ⟨_, -, h⟩ := Outcome.exists_of_bind_eq_ok h
  by_cases hheight : m.height = 0
  · simp only [hheight, if_true] at h
    exact absurd h nofun
  simp only [hheight, if_false] at h
  obtain ⟨_, hfinite, h⟩ := Outcome.exists_of_bind_eq_ok h
  exact ⟨Nat.pos_of_ne_zero hheight, hfinite, h⟩

/-- What a fit that succeeded has done. -/
theorem exists_of_fit_eq_ok {forest : Forest α} (h : p.fit chance m = .ok forest) :
    IsContamination p.contamination ∧ ∃ scores offset, trainingScores chance p m = .ok scores ∧
      quantile? p.contamination scores = some offset ∧
      forest = { p.grow chance m with offset } := by
  rw [fit_eq] at h
  obtain ⟨_, hcheck, h⟩ := Outcome.exists_of_bind_eq_ok h
  obtain ⟨scores, hscores, h⟩ := Outcome.exists_of_bind_eq_ok h
  refine ⟨?_, scores, ?_⟩
  · rw [checkContamination] at hcheck
    split at hcheck
    · assumption
    · exact absurd hcheck nofun
  · rcases hquantile : quantile? p.contamination scores with _ | offset
    · rw [hquantile] at h
      exact absurd h nofun
    · rw [hquantile] at h
      exact ⟨offset, hscores, rfl, (Except.ok.inj h).symm⟩

/-- A forest can be fitted to every finite matrix that has rows: each of them has a score, and the
scores have a quantile. -/
theorem exists_fit_eq_ok [LawfulRanks α] (hc : IsContamination p.contamination)
    (hcounts : p.checkCounts = .ok ()) (hheight : 0 < m.height)
    (hfinite : m.ensureFinite = .ok ()) :
    ∃ scores offset, (p.grow chance m).scores m = .ok scores ∧ scores ≠ [] ∧
      quantile? p.contamination scores = some offset ∧
        p.fit chance m = .ok { p.grow chance m with offset } := by
  obtain ⟨scores, hscores⟩ := (splitsInside_grow chance p m).exists_scores_eq_ok rfl hfinite
  have hne : scores ≠ [] := List.ne_nil_of_length_pos (Forest.length_of_scores hscores ▸ hheight)
  obtain ⟨offset, hoffset⟩ := exists_quantile?_of_ne_nil hc hne
  have htraining : trainingScores chance p m = .ok scores := by
    rw [trainingScores, hcounts, if_neg (Nat.ne_of_gt hheight), hfinite]
    exact hscores
  refine ⟨scores, offset, hscores, hne, hoffset, ?_⟩
  rw [fit_eq, checkContamination, if_pos hc, htraining]
  simp only [bind, Except.bind, hoffset]

/-- A forest is fitted only by counts that can be used. -/
theorem counts_of_fit {forest : Forest α} (h : p.fit chance m = .ok forest) :
    p.estimators ≠ 0 ∧ p.workers ≠ some 0 ∧ p.sampleLimit ≠ 0 := by
  obtain ⟨-, scores, _, htraining, -, -⟩ := exists_of_fit_eq_ok h
  rw [trainingScores] at htraining
  obtain ⟨_, hcounts, -⟩ := Outcome.exists_of_bind_eq_ok htraining
  exact checkCounts_eq_ok_iff.mp hcounts

theorem sampleSize_of_fit {forest : Forest α} (h : p.fit chance m = .ok forest) :
    forest.sampleSize = min p.sampleLimit m.height := by
  obtain ⟨-, _, _, -, -, rfl⟩ := exists_of_fit_eq_ok h
  rfl

/-- A forest has a feature for every column that it was fitted to. -/
theorem features_of_fit {forest : Forest α} (h : p.fit chance m = .ok forest) :
    forest.features = m.width := by
  obtain ⟨-, _, _, -, -, rfl⟩ := exists_of_fit_eq_ok h
  rfl

/-- A fitted forest divides existing columns only. -/
theorem splitsInside_of_fit {forest : Forest α} (h : p.fit chance m = .ok forest) :
    forest.SplitsInside := by
  obtain ⟨-, _, _, -, -, rfl⟩ := exists_of_fit_eq_ok h
  exact splitsInside_grow chance p m

end ForestParams

end OutlierScoring
