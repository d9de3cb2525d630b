import Mathlib
import OutlierScoring.Proofs.Forest.Lengths
import OutlierScoring.Proofs.Forest.Ranks
import OutlierScoring.Proofs.Forest.Splits
import OutlierScoring.Proofs.Number.Arithmetic
import OutlierScoring.Proofs.Store.Loading

/-!
# Fitted forests are read back

A forest that was fitted can be stored (`ForestParams.isStorable_of_fit`), so that it is read back
from its text as it was. Three things could get in the way of that. A threshold could be infinite,
where a column is so wide that its extent is; but such a threshold does not divide anything. The
offset could be infinite or no number at all, if a score was; but scores are between `-1` and `0`.
And a tree could be too high for a reader; but trees are grown to a height that is logarithmic in
the size of the sample, which leaves the reader half of its levels.
-/

namespace OutlierScoring

variable {α σ : Type} [Scalar α]

/-! ### Grown trees -/

namespace IsolationTree

variable {m : Matrix α} {height : Nat} {rows : List (Fin m.height)} {tree : IsolationTree α}

/-- The height counts divisions, and there is a leaf below the last of them. -/
theorem IsGrownOver.height_le (h : IsGrownOver m height rows tree) : tree.height ≤ height + 1 := by
  induction h with
  | leaf height rows => exact Nat.succ_le_succ (Nat.zero_le height)
  | node _ _ _ _ ihleft ihright => exact Nat.succ_le_succ (Nat.max_le.mpr ⟨ihleft, ihright⟩)

/-- Thresholds are inside of the columns, and sizes count rows of the sample. -/
theorem IsGrownOver.hasNumbers [RoundedScalar α] (h : IsGrownOver m height rows tree)
    (hfinite : m.IsFinite) (hheight : 0 < m.height) (hwidth : m.width < UInt64.size)
    (hrows : rows.length < UInt64.size) : tree.HasNumbers := by
  have hsplits := h.splitsWithin hfinite
  induction h with
  | leaf height rows => exact ⟨nofun, isBetween_zero.finite, hrows, trivial, trivial⟩
  | @node height rows j threshold left right _ _ _ _ ihleft ihright =>
    obtain ⟨hinside, hleft, hright⟩ := hsplits
    have hthreshold := (hinside j rfl).isFinite hfinite hheight
    refine ⟨?_, hthreshold, hrows, ?_, ?_⟩
    · rintro _ ⟨⟩
      exact j.isLt.trans hwidth
    · exact ihleft ((List.length_filter_le _ _).trans_lt hrows) hleft
    · exact ihright ((List.length_filter_le _ _).trans_lt hrows) hright

end IsolationTree

/-! ### Fitted forests -/

namespace ForestParams

/-- However large a sample is, its size is a machine word. -/
theorem heightLimit_le {n : Nat} (h : n < UInt64.size) : heightLimit n ≤ 64 := by
  rw [heightLimit]
  split
  · exact Nat.zero_le 64
  · have hpred : n - 1 < 2 ^ 64 := Nat.lt_of_le_of_lt (Nat.sub_le n 1) h
    exact (Nat.log2_lt (by omega)).mpr hpred

section Fitted

variable [RoundedScalar α] {chance : Chance σ α} {p : ForestParams α} {m : Matrix α}
  {forest : Forest α} (hdistinct : chance.draws.SamplesDistinct)
  (h : p.fit chance m = .ok forest) (hheight : m.height < UInt64.size)

include hdistinct h hheight

/-- The trees of a fitted forest have finite thresholds, and no more than the height that the size
of their sample asks for. -/
theorem trees_of_fit (hwidth : m.width < UInt64.size) : ∀ tree ∈ forest.trees,
    tree.isPresent = true ∧ tree.height ≤ heightLimit forest.sampleSize + 1 ∧ tree.HasNumbers := by
  intro tree htree
  obtain ⟨hpos, hfinite⟩ := isFinite_of_fit h
  obtain ⟨s, hgrown⟩ := exists_isGrownOver_of_fit h htree
  have hsize := (hdistinct (Nat.min_le_right p.sampleLimit m.height) s).length_eq
  have hrows := Nat.lt_of_le_of_lt (Nat.min_le_right p.sampleLimit m.height) hheight
  rw [sampleSize_of_fit h]
  exact ⟨hgrown.isPresent, hgrown.height_le,
    hgrown.hasNumbers hfinite hpos hwidth (hsize.trans_lt hrows)⟩

omit hdistinct [RoundedScalar α] in
theorem sampleSize_lt_of_fit : forest.sampleSize < UInt64.size :=
  sampleSize_of_fit h ▸ Nat.lt_of_le_of_lt (Nat.min_le_right p.sampleLimit m.height) hheight

variable [LawfulFunctions α]

/-- A fitted forest scores whatever it scores between `-1` and `0`. -/
theorem scores_isBetween_of_fit (hwidth : m.width < UInt64.size)
    (hcount : p.estimators < UInt64.size) {probe : Matrix α} {scores : List α}
    (hscores : forest.scores probe = .ok scores) : ∀ score ∈ scores, IsBetween (-1) 0 score :=
  Forest.scores_isBetween hscores (trees_ne_nil_of_fit h)
    ((length_trees_of_fit h).trans_lt hcount) (sampleSize_lt_of_fit h hheight)
    fun tree htree ↦ (trees_of_fit hdistinct h hheight hwidth tree htree).2.2

/-- A fitted forest can be stored. -/
theorem isStorable_of_fit (hwidth : m.width < UInt64.size) (hcount : p.estimators < UInt64.size) :
    forest.IsStorable := by
  have htrees := trees_of_fit hdistinct h hheight hwidth
  have hsize := sampleSize_lt_of_fit h hheight
  have hlimit := heightLimit_le hsize
  have hall {scores : List α} (hscores : forest.scores m = .ok scores) :=
    scores_isBetween_of_fit hdistinct h hheight hwidth hcount hscores
  obtain ⟨hc, scores, offset, htraining, hquantile, rfl⟩ := exists_of_fit_eq_ok h
  obtain ⟨-, -, hscores⟩ := exists_of_trainingScores_eq_ok htraining
  -- The offset, which is settled last, has no say in the scores.
  have hbetween := hall hscores
  have hbounds := contamination_isBetween hc
  refine ⟨fun tree htree ↦ ?_, hsize, hwidth, hbounds.finite, ?_⟩
  · obtain ⟨hpresent, hle, hnumbers⟩ := htrees tree htree
    exact ⟨hpresent, hle.trans ((Nat.succ_le_succ hlimit).trans (by decide)), hnumbers⟩
  · exact quantile?_finite (hbounds.mono le_rfl (by norm_num))
      ((Forest.length_of_scores hscores).trans_le hheight.le) hbetween hquantile

variable [Numeral α] [LawfulNumeral α]

/-- A fitted forest is read back from its text as it was, so that its copy gives all rows the same
scores and verdicts; it is also read back from a stored state. The levels of a stored state are as
many as the height of the trees and five more, which never reaches the limit of readers. Counts of
rows, columns and trees are machine words. -/
theorem read_back_of_fit (hwidth : m.width < UInt64.size) (hcount : p.estimators < UInt64.size) :
    forest.IsStorable ∧
    (∃ copy, Json.Form.read? (Json.Form.toJson forest).compact = some copy ∧ copy = forest ∧
      ∀ probe : Matrix α, copy.scores probe = forest.scores probe ∧
        OutlierModel.verdicts copy probe = OutlierModel.verdicts forest probe) ∧
    ∀ blob : Blob (Forest α), blob.model = forest →
      (Json.Form.toJson blob).nesting ≤ heightLimit forest.sampleSize + 5 ∧
      heightLimit forest.sampleSize + 5 < 128 ∧
      (blob.trainedAt.IsValid →
        Json.Form.read? (Json.Form.toJson blob).compact = some blob) := by
  have hstorable := isStorable_of_fit hdistinct h hheight hwidth hcount
  refine ⟨hstorable, ⟨forest, hstorable.read?_compact, rfl, fun _ ↦ ⟨rfl, rfl⟩⟩, ?_⟩
  rintro blob rfl
  have htrees := trees_of_fit hdistinct h hheight hwidth
  have hnesting := Forest.nesting_toJson_le fun tree htree ↦ (htrees tree htree).2.1
  have hlimit := heightLimit_le hstorable.sampleSize_lt
  exact ⟨Store.nesting_blob_le blob hnesting (Nat.succ_pos _), by omega,
    fun hvalid ↦ (Store.reads_modelFile hvalid).eq_some hstorable⟩

end Fitted

/-! ### Floats with powers that can be computed -/

/-- Floats whose logarithms and powers are computed here. They are those of the floats where two
rows need them: powers of `2` with whole exponents that are not positive, and the logarithm of `2`,
which stands for all others. -/
def TabledFloat : Type := Float

namespace TabledFloat

/-- The number `1`, halved that often. -/
def halved : Nat → Float
  | 0 => 1
  | n + 1 => halved n / Scalar.two

/-- The logarithm of `2`. -/
def logTwo : Float := 0.6931471805599453

instance : Scalar TabledFloat :=
  { (inferInstance : Scalar Float) with
    log := fun _ ↦ logTwo
    exp2 := fun (x : Float) ↦ halved (Scalar.floor (-x)) }

instance : Numeral TabledFloat := inferInstanceAs (Numeral Float)

instance : LawfulNumeral TabledFloat where
  isFinite_iff := LawfulNumeral.isFinite_iff (α := Float)
  ofDecimal_trim := LawfulNumeral.ofDecimal_trim (α := Float)

noncomputable instance : OrderedScalar TabledFloat where
  value := OrderedScalar.value (α := Float)
  lt_iff := OrderedScalar.lt_iff (α := Float)
  le_iff := OrderedScalar.le_iff (α := Float)
  isFinite_of_between := OrderedScalar.isFinite_of_between (α := Float)
  not_lt_of_le := OrderedScalar.not_lt_of_le (α := Float)
  isNaN_of_isFinite := OrderedScalar.isNaN_of_isFinite (α := Float)

noncomputable instance : RoundedScalar TabledFloat where
  isFinite_zero := RoundedScalar.isFinite_zero (α := Float)
  value_zero := RoundedScalar.value_zero (α := Float)
  isFinite_one := RoundedScalar.isFinite_one (α := Float)
  value_one := RoundedScalar.value_one (α := Float)
  exists_value_eq := RoundedScalar.exists_value_eq (α := Float)
  neg := RoundedScalar.neg (α := Float)
  value_natCast := RoundedScalar.value_natCast (α := Float)
  natCast := RoundedScalar.natCast (α := Float)
  two_mul := RoundedScalar.two_mul (α := Float)
  add := RoundedScalar.add (α := Float)
  sub := RoundedScalar.sub (α := Float)
  mul := RoundedScalar.mul (α := Float)
  div := RoundedScalar.div (α := Float)
  eulerGamma := RoundedScalar.eulerGamma (α := Float)
  add_nonneg := RoundedScalar.add_nonneg (α := Float)
  neg_nonpos := RoundedScalar.neg_nonpos (α := Float)
  div_nonneg := RoundedScalar.div_nonneg (α := Float)
  div_nonpos := RoundedScalar.div_nonpos (α := Float)

instance : LawfulOrder TabledFloat where
  sub_neg_iff := LawfulOrder.sub_neg_iff (α := Float)
  neg_lt_neg_iff := LawfulOrder.neg_lt_neg_iff (α := Float)

instance : LawfulRanks TabledFloat where
  floor_le_ceil := LawfulRanks.floor_le_ceil (α := Float)
  ceil_rank_le := LawfulRanks.ceil_rank_le (α := Float)

theorem isBetween_logTwo : IsBetween (1 / 2) 2 logTwo := by
  have hvalue : OrderedScalar.value logTwo = ((6243314768165359 : ℕ) : ℝ) * 2 ^ (-53 : ℤ) := rfl
  refine ⟨rfl, ?_, ?_⟩
  all_goals rw [hvalue]; norm_num

theorem halved_isBetween (n : Nat) : IsBetween 0 1 (halved n) := by
  induction n with
  | zero =>
    have hone : IsBetween 1 1 (1 : Float) := isBetween_one
    exact hone.mono zero_le_one le_rfl
  | succ n ih =>
    obtain ⟨htwo, hvalue⟩ := value_two Float
    have hround := RoundedScalar.div ih.finite htwo (hvalue.trans_ne two_ne_zero)
    rw [hvalue] at hround
    exact hround.isBetween (isExact_zero Float) (isExact_one Float)
      (div_nonneg ih.low_le zero_le_two) ((div_le_self ih.low_le one_le_two).trans ih.le_high)

instance : LawfulFunctions TabledFloat where
  log {x} _ hx := by
    have hlog := isBetween_logTwo
    exact ⟨hlog.finite, hlog.low_le, hlog.le_high.trans hx⟩
  exp2 {x} _ := by
    obtain ⟨hfinite, hlow, hhigh⟩ := halved_isBetween (Scalar.floor (-x : Float))
    exact ⟨hfinite, hlow, hhigh⟩

end TabledFloat

/-- The forest of two trees over `0` and `1` is read back from its text. -/
theorem read_back_of_fit_pair : ∃ forest : Forest TabledFloat,
    twoTrees.fit Keystream.chance (.ofSeries [0, 1]) = .ok forest ∧
    Json.Form.read? (Json.Form.toJson forest).compact = some forest := by
  obtain ⟨_, hfinite⟩ := Outcome.exists_of_isOk
    (show (Matrix.ofSeries [(0 : TabledFloat), 1]).ensureFinite.isOk = true by decide +kernel)
  obtain ⟨forest, hfit⟩ : ∃ forest : Forest TabledFloat,
      twoTrees.fit Keystream.chance (.ofSeries [0, 1]) = .ok forest :=
    exists_fit_pair (by decide +kernel) hfinite
  obtain ⟨-, ⟨_, hread, rfl, -⟩, -⟩ := read_back_of_fit Keystream.samplesDistinct hfit
    (by decide) (by decide) (by decide)
  exact ⟨_, hfit, hread⟩

end ForestParams

end OutlierScoring
