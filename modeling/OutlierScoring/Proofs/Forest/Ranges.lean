import Mathlib
import OutlierScoring.Proofs.Forest.Growth
import OutlierScoring.Proofs.Forest.Quantile
import OutlierScoring.Proofs.Forest.Saturation
import OutlierScoring.Proofs.Number.Rounded

/-!
# Ranges of scores

How far scores can go where logarithms, powers and sums are those of the real numbers. A way down a
tree over `n ≥ 2` rows makes a division, or it ends at the root, which adds the expected length of
`n` rows; since that length is at least `1` (`IsolationTree.one_le_averagePathLength`), no way is
shorter than `1`. No way makes more divisions than the height allows, nor does it add more than the
expected length of all rows. The mean over the trees keeps both bounds, and the power of two that
makes a score turns them around (`ForestParams.scores_within_of_fit`).

The expected length grows with the number of rows (`IsolationTree.averagePathLength_mono`). It is a
table for two rows and fewer, and a formula from three rows on.
-/

namespace OutlierScoring

variable {σ : Type}

/-! ### Expected lengths -/

namespace IsolationTree

/-- The formula for three rows and more. -/
theorem averagePathLength_add_three (n : ℕ) : (averagePathLength (n + 3) : ℝ) =
    2 * (Real.log (n + 2) + 0.5772156649) - 2 * (n + 2) / (n + 3) := by
  have hcast : ((n + 3 : ℕ) : ℝ) - 1 = n + 2 := by
    push_cast
    ring
  show ((2 : ℕ) : ℝ) * (Real.log (((n + 3 : ℕ) : ℝ) - 1) + 0.5772156649) -
    ((2 : ℕ) : ℝ) * (((n + 3 : ℕ) : ℝ) - 1) / ((n + 3 : ℕ) : ℝ) = _
  rw [hcast]
  push_cast
  ring

theorem averagePathLength_le_succ (n : ℕ) :
    (averagePathLength n : ℝ) ≤ averagePathLength (n + 1) := by
  match n with
  | 0 => exact le_rfl
  | 1 => exact zero_le_one
  | 2 =>
    -- Here the formula takes over from the table.
    have hlog := Real.log_two_gt_d9
    rw [averagePathLength_add_three 0]
    show (1 : ℝ) ≤ _
    norm_num at hlog ⊢
    linarith
  | n + 3 =>
    have hthree : (0 : ℝ) < n + 3 := by positivity
    have hratio : 1 - ((n + 3 : ℝ) / (n + 2))⁻¹ ≤ Real.log ((n + 3) / (n + 2)) :=
      Real.one_sub_inv_le_log_of_pos (by positivity)
    rw [Real.log_div (by positivity) (by positivity), inv_div] at hratio
    have hfirst : 2 * (n + 2 : ℝ) / (n + 3) = 2 - 2 / (n + 3) := by
      field_simp
      ring
    have hsecond : 2 * (n + 3 : ℝ) / (n + 4) = 2 - 2 / (n + 4) := by
      field_simp
      ring
    have hstep : 1 - (n + 2 : ℝ) / (n + 3) = 1 / (n + 3) := by
      field_simp
      ring
    have hshare : (0 : ℝ) ≤ 2 / (n + 4) := by positivity
    have hnext := averagePathLength_add_three (n + 1)
    push_cast at hnext
    rw [averagePathLength_add_three n, show n + 3 + 1 = n + 1 + 3 from rfl, hnext,
      show (n : ℝ) + 1 + 2 = n + 3 by ring, show (n : ℝ) + 1 + 3 = n + 4 by ring, hfirst, hsecond]
    rw [hstep] at hratio
    have hdouble : 2 * (1 / (n + 3 : ℝ)) = 2 / (n + 3) := by ring
    linarith

/-- More rows are expected to lie deeper. -/
theorem averagePathLength_mono : Monotone (averagePathLength : ℕ → ℝ) :=
  monotone_nat_of_le_succ averagePathLength_le_succ

theorem averagePathLength_nonneg (n : ℕ) : 0 ≤ (averagePathLength n : ℝ) :=
  averagePathLength_mono (Nat.zero_le n)

theorem one_le_averagePathLength {n : ℕ} (h : 2 ≤ n) : 1 ≤ (averagePathLength n : ℝ) :=
  averagePathLength_mono h

end IsolationTree

/-! ### Heights -/

/-- The height that trees are allowed is the logarithm of the number of rows, rounded up. -/
theorem ForestParams.heightLimit_eq (n : ℕ) : heightLimit n = ⌈Real.logb 2 n⌉₊ := by
  have hceil := Real.natCeil_logb_natCast 2 n
  rw [Nat.cast_ofNat] at hceil
  rw [hceil, heightLimit]
  split
  · rename_i h
    exact (Nat.clog_of_right_le_one h 2).symm
  · rename_i h
    have hpos : n - 1 ≠ 0 := by omega
    refine le_antisymm ?_ ?_
    · rw [Nat.succ_le_iff, ← not_le, Nat.clog_le_iff_le_pow one_lt_two]
      have := Nat.log2_self_le hpos
      omega
    · rw [Nat.clog_le_iff_le_pow one_lt_two]
      have := Nat.lt_log2_self (n := n - 1)
      omega

/-! ### Lengths of ways -/

namespace IsolationTree

variable {m : Matrix ℝ} {sample : List (Fin m.height)} {height : ℕ} {tree : IsolationTree ℝ}

/-- A way leaves the root or ends there, among all rows of the sample. -/
theorem Tells.exists_length (h : tree.Tells m sample height) (htwo : 2 ≤ sample.length)
    (row : Vector ℝ m.width) : ∃ length, pathLength? row.toList 0 tree = some length ∧
      1 ≤ length ∧ length ≤ height + averagePathLength sample.length := by
  obtain ⟨size, hleaf, hlength⟩ := h.exists_leaf row
  have hsize : size = _ := h.size_eq hleaf
  have hdivisions := h.length_le hleaf
  have hrows : size ≤ sample.length := hsize ▸ List.countP_le_length
  have hcount : (· + 1)^[(way row.toList tree).length] (0 : ℝ) = (way row.toList tree).length := by
    rw [add_right_iterate]
    simp
  refine ⟨_, (hlength 0).trans (congrArg (some <| · + _) hcount), ?_, ?_⟩
  · rcases hway : way row.toList tree with _ | ⟨side, below⟩
    · -- All rows of the sample have the root on their way.
      rw [hway] at hsize
      have hall : size = sample.length := by simpa using hsize
      rw [hall]
      simpa using one_le_averagePathLength htwo
    · have hpos : (1 : ℝ) ≤ (side :: below).length := by exact_mod_cast Nat.succ_pos _
      exact hpos.trans (le_add_of_nonneg_right (averagePathLength_nonneg size))
  · have hdivisions : ((way row.toList tree).length : ℝ) ≤ height := by exact_mod_cast hdivisions
    exact add_le_add hdivisions (averagePathLength_mono hrows)

end IsolationTree

/-! ### Scores -/

namespace Forest

/-- Bounds of all lengths are bounds of their mean. -/
theorem exists_meanPathLength?_eq {trees : List (IsolationTree ℝ)} (hne : trees ≠ [])
    {row : List ℝ} {low high : ℝ} (h : ∀ tree ∈ trees, ∃ length,
      IsolationTree.pathLength? row 0 tree = some length ∧ low ≤ length ∧ length ≤ high) :
    ∃ mean, meanPathLength? trees row = some mean ∧ low ≤ mean ∧ mean ≤ high := by
  choose! length hlength hlow hhigh using h
  have hlengths : trees.mapM (IsolationTree.pathLength? row 0) = some (trees.map length) := by
    rw [Outcome.mapM_eq_some_iff, List.forall₂_map_right_iff, List.forall₂_same]
    exact hlength
  have hpos : (0 : ℝ) < trees.length := by exact_mod_cast List.length_pos_of_ne_nil hne
  have hleast := List.card_nsmul_le_sum (trees.map length) low (List.forall_mem_map.mpr hlow)
  have hmost := List.sum_le_card_nsmul (trees.map length) high (List.forall_mem_map.mpr hhigh)
  rw [List.length_map, nsmul_eq_mul, mul_comm] at hleast hmost
  refine ⟨(trees.map length).sum / trees.length, ?_, (le_div_iff₀ hpos).mpr hleast,
    (div_le_iff₀ hpos).mpr hmost⟩
  rw [meanPathLength?, hlengths, ← Scalar.sum_real]
  rfl

/-- The scores of some rows are made of the mean lengths of their ways. -/
theorem exists_lengths_of_scores {α : Type} [Scalar α] {forest : Forest α} {probe : Matrix α}
    {scores : List α} (h : forest.scores probe = .ok scores) : ∃ lengths,
      probe.rows.toList.mapM (fun row ↦ meanPathLength? forest.trees row.toList) = some lengths ∧
      scores = lengths.map (scoreOf forest.sampleSize) := by
  rw [scores_eq] at h
  split at h
  · cases h
  obtain ⟨_, -, hrows⟩ := Outcome.exists_of_bind_eq_ok h
  clear h
  simp only [Outcome.mapM_eq_some_iff]
  rw [Outcome.mapM_eq_ok_iff] at hrows
  generalize probe.rows.toList = rows at hrows ⊢
  induction hrows with
  | nil => exact ⟨[], .nil, rfl⟩
  | cons hscore _ ih =>
    obtain ⟨lengths, hlengths, rfl⟩ := ih
    rw [scoreRow] at hscore
    split at hscore
    · rename_i length hlength
      obtain rfl := Except.ok.inj hscore
      exact ⟨length :: lengths, .cons hlength hlengths, rfl⟩
    · cases hscore

section Expected

variable {n : ℕ} (h : 2 ≤ n)

include h

/-- The score of a mean length, where some length is expected. -/
theorem scoreOf_of_two_le (mean : ℝ) :
    scoreOf n mean = -(2 : ℝ) ^ (-mean / IsolationTree.averagePathLength n) :=
  if_pos (one_pos.trans_le (IsolationTree.one_le_averagePathLength h))

/-- The shorter the ways, the higher the score with its sign turned around. -/
theorem neg_scoreOf_lt_iff (mean mean' : ℝ) :
    -scoreOf n mean < -scoreOf n mean' ↔ mean' < mean := by
  have hpos := one_pos.trans_le (IsolationTree.one_le_averagePathLength h)
  rw [scoreOf_of_two_le h, scoreOf_of_two_le h, neg_neg, neg_neg,
    Real.rpow_lt_rpow_left_iff one_lt_two, div_lt_div_iff_of_pos_right hpos, neg_lt_neg_iff]

theorem neg_scoreOf_le_iff (mean mean' : ℝ) :
    -scoreOf n mean ≤ -scoreOf n mean' ↔ mean' ≤ mean := by
  rw [← not_lt, neg_scoreOf_lt_iff h, not_lt]

end Expected

theorem scoreOf_one (mean : ℝ) : scoreOf 1 mean = -1 := if_neg (lt_irrefl (0 : ℝ))

/-! ### Fitted forests -/

/-- All scores, which are negative, and the threshold lie between the bounds when their signs are
turned around. -/
structure ScoresWithin (forest : Forest ℝ) (low high : ℝ) : Prop where
  scores (probe : Matrix ℝ) : probe.width = forest.features → ∃ scores,
    forest.scores probe = .ok scores ∧ scores.length = probe.height ∧
      ∀ score ∈ scores, low ≤ -score ∧ -score ≤ high
  threshold : low ≤ -forest.offset ∧ -forest.offset ≤ high

/-- Of two rows the one with the shorter ways, in the mean over the trees, is more anomalous. -/
def RanksByLength (forest : Forest ℝ) : Prop :=
  ∀ (probe : Matrix ℝ) (scores : List ℝ), forest.scores probe = .ok scores → ∃ lengths,
    probe.rows.toList.mapM (fun row ↦ meanPathLength? forest.trees row.toList) = some lengths ∧
    lengths.length = scores.length ∧
    ∀ (i j : ℕ) (hi : i < scores.length) (hj : j < scores.length)
      (hi' : i < lengths.length) (hj' : j < lengths.length),
      -scores[i] < -scores[j] ↔ lengths[j] < lengths[i]

theorem ranksByLength {forest : Forest ℝ} (h : 2 ≤ forest.sampleSize) : forest.RanksByLength := by
  intro probe scores hscores
  obtain ⟨lengths, hlengths, rfl⟩ := exists_lengths_of_scores hscores
  refine ⟨lengths, hlengths, (List.length_map _).symm, fun i j _ _ _ _ ↦ ?_⟩
  rw [List.getElem_map, List.getElem_map, neg_scoreOf_lt_iff h]

/-- If all scores and the threshold are `-1`, no row is an outlier. -/
theorem ScoresWithin.verdicts_eq {forest : Forest ℝ} (h : forest.ScoresWithin 1 1)
    {probe : Matrix ℝ} (hwidth : probe.width = forest.features) :
    OutlierModel.verdicts forest probe = .ok (List.replicate probe.height .normal) := by
  obtain ⟨scores, hscores, hlength, hbounds⟩ := h.scores probe hwidth
  rw [verdicts_of_scores hscores, ← hlength]
  refine congrArg Except.ok (List.map_eq_replicate_iff.mpr fun score hscore ↦ if_neg ?_)
  obtain ⟨hlow, hhigh⟩ := hbounds score hscore
  obtain ⟨hlow', hhigh'⟩ := h.threshold
  show ¬score - forest.offset < 0
  linarith

end Forest

theorem Matrix.ensureFinite_real (m : Matrix ℝ) : m.ensureFinite = .ok () :=
  ensureFinite_eq_ok_iff.mpr fun _ _ _ _ ↦ rfl

namespace ForestParams

variable {chance : Chance σ ℝ} {p : ForestParams ℝ} {m : Matrix ℝ} {forest : Forest ℝ}
  (h : p.fit chance m = .ok forest)

include h

/-- A bound of the scores of single rows is one of the threshold too, which lies between the scores
of two training rows. -/
theorem scoresWithin_of_fit {low high : ℝ} (hrow : ∀ (row : Vector ℝ m.width) (score : ℝ),
    forest.scoreRow row.toList = .ok score → low ≤ -score ∧ -score ≤ high) :
    forest.ScoresWithin low high := by
  have hfeatures := features_of_fit h
  have hscores : ∀ probe : Matrix ℝ, probe.width = forest.features → ∃ scores,
      forest.scores probe = .ok scores ∧ scores.length = probe.height ∧
        ∀ score ∈ scores, low ≤ -score ∧ -score ≤ high := by
    rintro ⟨width, rows⟩ hwidth
    obtain rfl : width = m.width := hwidth.trans hfeatures
    have hfinite := Matrix.ensureFinite_real ⟨m.width, rows⟩
    obtain ⟨scores, hscores⟩ := (splitsInside_of_fit h).exists_scores_eq_ok hwidth hfinite
    refine ⟨scores, hscores, Forest.length_of_scores hscores, fun score hscore ↦ ?_⟩
    rw [Forest.scores_of_finite hwidth hfinite] at hscores
    obtain ⟨row, -, hrow'⟩ := Outcome.exists_of_mem_mapM hscores score hscore
    exact hrow row score hrow'
  refine ⟨hscores, ?_⟩
  obtain ⟨scores, htraining, -, hbounds⟩ := hscores m hfeatures.symm
  obtain ⟨hc, scores', offset, htraining', hquantile, rfl⟩ := exists_of_fit_eq_ok h
  obtain ⟨-, -, htraining'⟩ := exists_of_trainingScores_eq_ok htraining'
  have htwin : (p.grow chance m).IsTwin { p.grow chance m with offset } := ⟨rfl, rfl, rfl⟩
  rw [htwin.scores_eq, htraining'] at htraining
  obtain rfl := Except.ok.inj htraining
  have hpos := ((isContamination_iff p.contamination).mp hc).1
  obtain ⟨below, hbelow, above, habove, hle, hge⟩ :=
    exists_le_quantile_le hquantile hpos.le (le_one_of_isContamination hc)
  exact ⟨(hbounds above habove).1.trans (neg_le_neg hge),
    (neg_le_neg hle).trans (hbounds below hbelow).2⟩

/-- The mean length of the ways of a row is bounded as the ways are. -/
theorem exists_meanPathLength?_of_fit (hdistinct : chance.draws.SamplesDistinct)
    (htwo : 2 ≤ min p.sampleLimit m.height) (row : Vector ℝ m.width) : ∃ mean,
      Forest.meanPathLength? forest.trees row.toList = some mean ∧ 1 ≤ mean ∧
      mean ≤ ⌈Real.logb 2 (min p.sampleLimit m.height : ℕ)⌉₊ +
        IsolationTree.averagePathLength (min p.sampleLimit m.height) := by
  refine Forest.exists_meanPathLength?_eq (trees_ne_nil_of_fit h) fun tree htree ↦ ?_
  obtain ⟨s, hgrown⟩ := exists_isGrownOver_of_fit h htree
  have hlength := (hdistinct (Nat.min_le_right p.sampleLimit m.height) s).length_eq
  have hbounds := hgrown.tells.exists_length (htwo.trans hlength.ge) row
  rw [hlength, heightLimit_eq] at hbounds
  exact hbounds

end ForestParams

end OutlierScoring
