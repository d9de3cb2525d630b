import OutlierScoring.Proofs.Engine.States
import OutlierScoring.Proofs.Forest.Scores
import OutlierScoring.Proofs.Number.Lawful
import OutlierScoring.Proofs.Series

/-!
# Predictions of a state

A state scores a matrix in one pass as far as its answer is concerned: the labels that it gives are
those of the scores that it gives (`TrainedState.score_eq`), and a label says which side of the
threshold its score is on (`Prediction.follows_ofScores`).

What a prediction for a series is refused for is looked at in a fixed order: whether there is
anything in the series, whether it is finite, whether statistics and forest are for one column,
whether it is finite still when it has been standardized. After that only a row that strays can keep
a forest from an answer, so that a forest that divides existing columns only answers
(`TrainedState.IsSound.answersInOrder`).
-/

namespace OutlierScoring

variable {α : Type} [Scalar α]

/-- Wherever there are scores there are statistics of them. -/
theorem ScoreStats.exists_of?_eq_some {scores : List α} (h : scores ≠ []) :
    ∃ stats, of? scores = some stats :=
  ⟨_, if_neg (by simpa using h)⟩

/-! ### Labels -/

namespace Prediction

/-- The prediction for rows to which a model gives some scores. -/
def ofScores (offset : α) (scores : List α) : Prediction α :=
  ⟨scores.map (-·), scores.map fun score ↦ (OutlierModel.verdictOf (score - offset)).label⟩

/-- There are `n` scores and as many labels, and the labels tell which of the scores are above the
threshold. -/
structure Follows (p : Prediction α) (threshold : α) (n : Nat) : Prop where
  length_scores : p.scores.length = n
  length_labels : p.labels.length = n
  eq_zero_or_one : ∀ label ∈ p.labels, label = 0 ∨ label = 1
  eq_one_iff : ∀ (i : Nat) (hs : i < p.scores.length) (hl : i < p.labels.length),
    p.labels[i] = 1 ↔ threshold < p.scores[i]

variable [LawfulOrder α] (offset : α)

theorem label_verdictOf (score : α) :
    (OutlierModel.verdictOf (score - offset)).label = if score < offset then 1 else 0 := by
  rw [OutlierModel.verdictOf]
  simp only [LawfulOrder.sub_neg_iff]
  split <;> rfl

/-- A negative decision and a score above the threshold are the same. -/
theorem label_eq_one_iff (score : α) :
    (OutlierModel.verdictOf (score - offset)).label = 1 ↔ -offset < -score := by
  rw [label_verdictOf, LawfulOrder.neg_lt_neg_iff]
  split <;> simp_all

/-- The labels of a prediction follow its scores. -/
theorem follows_ofScores (scores : List α) :
    (ofScores offset scores).Follows (-offset) scores.length where
  length_scores := List.length_map _
  length_labels := List.length_map _
  eq_zero_or_one label hlabel := by
    obtain ⟨score, -, rfl⟩ := List.mem_map.mp hlabel
    rw [label_verdictOf]
    split
    · exact .inr rfl
    · exact .inl rfl
  eq_one_iff i hs hl := by
    simp only [ofScores, List.getElem_map]
    exact label_eq_one_iff offset _

theorem anomalyCount_ofScores (scores : List α) :
    (ofScores offset scores).anomalyCount = scores.countP (· < offset) := by
  rw [anomalyCount, ofScores, List.count, List.countP_map]
  refine List.countP_congr fun score _ ↦ ?_
  rw [Function.comp_apply, beq_iff_eq, decide_eq_true_iff, label_eq_one_iff,
    LawfulOrder.neg_lt_neg_iff]

end Prediction

namespace TrainedState

section Score

variable {M : Type} [OutlierModel M α]

/-- Scores and labels come from one list of scores. -/
theorem score_eq (state : TrainedState α M) (m : Matrix α) :
    state.score m = state.scaler.transform m >>= fun scaled ↦
      OutlierModel.scores state.model scaled >>= fun scores ↦
        .ok (.ofScores (OutlierModel.offset state.model) scores) := by
  rw [score]
  rcases state.scaler.transform m with failure | scaled
  · rfl
  simp only [bind, Except.bind]
  rw [OutlierModel.verdicts, OutlierModel.decisions]
  rcases OutlierModel.scores state.model scaled with failure | scores
  · rfl
  · simp only [bind, Except.bind, pure, Except.pure, List.map_map]
    rfl

/-! ### Series -/

variable {state : TrainedState α M} {series : List α}

theorem predict_nil (state : TrainedState α M) : state.predict [] = .error .emptySeries := rfl

theorem predict_of_nonFinite {row : Nat}
    (h : series.findIdx? (!Scalar.isFinite ·) = some row) :
    state.predict series = .error (.nonFiniteValue row 0) := by
  have hne : series ≠ [] := by
    rintro rfl
    exact absurd h nofun
  rw [predict_eq, if_neg (by simpa using hne), Matrix.ensureFinite_ofSeries, h]
  rfl

theorem predict_of_finite (hne : series ≠ []) (hfinite : ∀ x ∈ series, Scalar.isFinite x = true) :
    state.predict series = state.score (.ofSeries series) := by
  rw [predict_eq, if_neg (by simpa using hne), Matrix.ensureFinite_ofSeries,
    findIdx?_eq_none_of_finite hfinite]
  rfl

end Score

/-! ### Forests -/

variable {state : TrainedState α (Forest α)} {series : List α}

/-- Statistics for another number of columns than one do not fit to a series. -/
theorem score_of_features_ne {statistics : Statistics α}
    (hstatistics : state.scaler.statistics = some statistics)
    (hmean : statistics.mean.size = state.model.features) (hne : state.model.features ≠ 1) :
    state.score (.ofSeries series) = .error (.featureCountMismatch state.model.features 1) := by
  have hwidth : ¬statistics.mean.size = (Matrix.ofSeries series).width := by
    rw [hmean]
    exact hne
  have htransform : state.scaler.transform (.ofSeries series) =
      .error (.featureCountMismatch state.model.features 1) := by
    rw [Scaler.transform, hstatistics]
    simp only [dif_neg hwidth]
    rw [hmean, Matrix.width_ofSeries]
  rw [score_eq, htransform]
  rfl

/-- One mean and another number of scales stretch a series to a matrix that does not fit to the
forest. -/
theorem score_of_scale_ne {mean : α} {scale : Array α}
    (hstatistics : state.scaler.statistics = some ⟨#[mean], scale⟩)
    (hfeatures : state.model.features = 1) (hne : scale.size ≠ 1) :
    state.score (.ofSeries series) = .error (.featureCountMismatch 1 scale.size) := by
  obtain ⟨scaled, hscaled, hwidth⟩ := Scaler.exists_standardize_ofSeries series #v[mean] scale
  have htransform : state.scaler.transform (.ofSeries series) = .ok scaled := by
    rw [Scaler.transform, hstatistics]
    exact hscaled
  have hscores : state.model.scores scaled = .error (.featureCountMismatch 1 scale.size) := by
    rw [Forest.scores_eq, hfeatures, if_pos (hwidth ▸ hne), hwidth]
  rw [score_eq, htransform]
  show state.model.scores scaled >>= _ = _
  rw [hscores]
  rfl

/-- One mean and one scale standardize a series, and its entries are scored one by one. -/
theorem score_of_one {mean scale : α}
    (hstatistics : state.scaler.statistics = some ⟨#[mean], #[scale]⟩)
    (hfeatures : state.model.features = 1) :
    state.score (.ofSeries series) =
      match (series.map fun x ↦ (x - mean) / scale).findIdx? (!Scalar.isFinite ·) with
      | some row => .error (.nonFiniteValue row 0)
      | none =>
        (series.map fun x ↦ (x - mean) / scale).mapM (fun x ↦ state.model.scoreRow [x]) >>=
          fun scores ↦ .ok (.ofScores state.model.offset scores) := by
  have htransform : state.scaler.transform (.ofSeries series) =
      .ok (.ofSeries (series.map fun x ↦ (x - mean) / scale)) := by
    rw [Scaler.transform, hstatistics]
    exact Scaler.standardize_ofSeries series mean scale
  rw [score_eq, htransform]
  generalize series.map (fun x ↦ (x - mean) / scale) = scaled
  show state.model.scores (.ofSeries scaled) >>= _ = _
  rw [Forest.scores_ofSeries hfeatures]
  rcases scaled.findIdx? (!Scalar.isFinite ·) with _ | row
  · rfl
  · rfl

/-- Statistics and forest are for the same columns, and the forest divides no others. -/
structure IsSound (state : TrainedState α (Forest α)) (statistics : Statistics α) : Prop where
  statistics_eq : state.scaler.statistics = some statistics
  size_mean : statistics.mean.size = state.model.features
  size_scale : statistics.scale.size = state.model.features
  splitsInside : state.model.SplitsInside

/-- How a state answers series. What a series is refused for is looked at in the order of the
fields. -/
structure AnswersInOrder (state : TrainedState α (Forest α)) : Prop where
  empty_iff (series : List α) : state.predict series = .error .emptySeries ↔ series = []
  /-- The first entry that is not finite is reported. -/
  nonFinite (series : List α) (row : Nat) : series.findIdx? (!Scalar.isFinite ·) = some row →
    state.predict series = .error (.nonFiniteValue row 0)
  mismatch (series : List α) : series ≠ [] → (∀ x ∈ series, Scalar.isFinite x = true) →
    state.model.features ≠ 1 →
    state.predict series = .error (.featureCountMismatch state.model.features 1)
  /-- The first entry that is not finite when it has been standardized is reported; if there is
  none, there is a prediction. -/
  scored : state.model.features = 1 → ∃ mean scale : α,
    state.scaler.statistics = some ⟨#[mean], #[scale]⟩ ∧
    ∀ series : List α, series ≠ [] → (∀ x ∈ series, Scalar.isFinite x = true) →
      match (series.map fun x ↦ (x - mean) / scale).findIdx? (!Scalar.isFinite ·) with
      | some row => state.predict series = .error (.nonFiniteValue row 0)
      | none => ∃ prediction, state.predict series = .ok prediction ∧
          prediction.Follows state.threshold series.length

variable {statistics : Statistics α} (h : state.IsSound statistics)

include h

omit [Scalar α] in
/-- One column means one mean and one scale. -/
theorem IsSound.exists_eq (hfeatures : state.model.features = 1) :
    ∃ mean scale : α, state.scaler.statistics = some ⟨#[mean], #[scale]⟩ := by
  obtain ⟨means, scales⟩ := statistics
  obtain ⟨mean, rfl⟩ := Array.size_eq_one_iff.mp (h.size_mean.trans hfeatures)
  obtain ⟨scale, rfl⟩ := Array.size_eq_one_iff.mp (h.size_scale.trans hfeatures)
  exact ⟨mean, scale, h.statistics_eq⟩

/-- A series that is finite when it has been standardized is scored. -/
theorem IsSound.exists_score_eq {mean scale : α}
    (hstatistics : state.scaler.statistics = some ⟨#[mean], #[scale]⟩)
    (hfeatures : state.model.features = 1) (series : List α) :
    match (series.map fun x ↦ (x - mean) / scale).findIdx? (!Scalar.isFinite ·) with
    | some row => state.score (.ofSeries series) = .error (.nonFiniteValue row 0)
    | none => ∃ scores, scores.length = series.length ∧
        state.score (.ofSeries series) = .ok (.ofScores state.model.offset scores) := by
  rw [score_of_one hstatistics hfeatures]
  obtain ⟨scores, hscores⟩ := h.splitsInside.exists_mapM_eq_ok hfeatures
    (series.map fun x ↦ (x - mean) / scale)
  have hlength : scores.length = series.length := by
    rw [Outcome.length_of_mapM hscores, List.length_map]
  rw [hscores]
  split
  · rfl
  · exact ⟨scores, hlength, rfl⟩

/-- Only the empty series is refused as empty. -/
theorem IsSound.predict_ne_emptySeries {series : List α} (hne : series ≠ []) :
    state.predict series ≠ .error .emptySeries := by
  rcases hrow : series.findIdx? (!Scalar.isFinite ·) with _ | row
  · have hfinite : ∀ x ∈ series, Scalar.isFinite x = true := by
      simpa using List.findIdx?_eq_none_iff.mp hrow
    rw [predict_of_finite hne hfinite]
    by_cases hfeatures : state.model.features = 1
    · obtain ⟨mean, scale, hstatistics⟩ := h.exists_eq hfeatures
      have hscore := h.exists_score_eq hstatistics hfeatures series
      split at hscore
      · rw [hscore]
        exact nofun
      · obtain ⟨scores, -, hscore⟩ := hscore
        rw [hscore]
        exact nofun
    · rw [score_of_features_ne h.statistics_eq h.size_mean hfeatures]
      exact nofun
  · rw [predict_of_nonFinite hrow]
    exact nofun

/-- A sound state never breaks off, and its labels follow its threshold. -/
theorem IsSound.answersInOrder [LawfulOrder α] : state.AnswersInOrder where
  empty_iff series := by
    refine ⟨fun hempty ↦ ?_, fun hnil ↦ hnil ▸ predict_nil state⟩
    exact Classical.byContradiction fun hne ↦ h.predict_ne_emptySeries hne hempty
  nonFinite series row := predict_of_nonFinite
  mismatch series hne hfinite hfeatures := by
    rw [predict_of_finite hne hfinite]
    exact score_of_features_ne h.statistics_eq h.size_mean hfeatures
  scored hfeatures := by
    obtain ⟨mean, scale, hstatistics⟩ := h.exists_eq hfeatures
    refine ⟨mean, scale, hstatistics, fun series hne hfinite ↦ ?_⟩
    have hscore := h.exists_score_eq hstatistics hfeatures series
    rw [predict_of_finite hne hfinite]
    split at hscore
    · exact hscore
    · obtain ⟨scores, hlength, hscore⟩ := hscore
      exact ⟨_, hscore, hlength ▸ Prediction.follows_ofScores state.model.offset scores⟩

end TrainedState

end OutlierScoring
