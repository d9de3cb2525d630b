import Mathlib
import OutlierScoring.Proofs.Engine.Summaries
import OutlierScoring.Proofs.Forest.Level

/-!
# Trainings on level data

A training on data that are level when they have been standardized does not fail on their account,
and it finds no outliers, neither in them nor anywhere else (`Engine.level_data_flag_nothing`). The
rows that the summary counts are those that the forest was fitted to, so that nothing has to be
known of them but that they are finite.
-/

namespace OutlierScoring

variable {α σ : Type} [Scalar α] [RoundedScalar α]

namespace Engine

section Models

variable {engine : Engine α (Forest α)} {forest : Forest α} {score : α} {m : Matrix α}
  {tree : Files.Tree} {data : Option (List α)} {matrix : FeatureMatrix α} {source : TrainingSource}
  {contamination : α}

/-- A summary of rows of which the model flags none counts no outliers. -/
theorem exists_summarize_of_flagsNothing {state : TrainedState α (Forest α)}
    (hflags : state.model.FlagsNothing score)
    (htransform : state.scaler.transform matrix.values = .ok m)
    (hfeatures : state.model.features = m.width) (hpos : 0 < m.height) (hfinite : m.IsFinite)
    (source : TrainingSource) :
    ∃ summary, summarize state matrix source = .ok summary ∧ summary.anomalyCount = 0 := by
  have hscore : state.score matrix.values =
      .ok (.ofScores state.model.offset (List.replicate m.height score)) := by
    rw [TrainedState.score_eq, htransform]
    show (state.model.scores m >>= fun scores ↦ _) = _
    rw [hflags.scores_eq hfeatures.symm hfinite]
    rfl
  have hcount : (Prediction.ofScores state.model.offset
      (List.replicate m.height score)).anomalyCount = 0 := by
    show ((List.replicate m.height score).map fun score ↦
      (OutlierModel.verdictOf (score - state.model.offset)).label).count 1 = 0
    rw [List.map_replicate, verdictOf_eq_normal hflags.isFinite_decision hflags.value_decision]
    exact List.count_eq_zero.mpr fun h ↦ absurd (List.eq_of_mem_replicate h) (by decide)
  obtain ⟨stats, hstats⟩ : ∃ stats, (Prediction.ofScores state.model.offset
      (List.replicate m.height score)).stats? = some stats :=
    ScoreStats.exists_of?_eq_some (by simpa [Prediction.ofScores] using hpos.ne')
  rw [summarize, hscore]
  simp only [bind, Except.bind, hstats]
  exact ⟨_, rfl, hcount⟩

/-- A training whose model flags nothing succeeds, and it counts no outliers. -/
theorem exists_prepare_of_flagsNothing (hflags : forest.FlagsNothing score)
    (hmatrix : engine.trainingMatrix tree data = .ok (matrix, source))
    (hvalues : matrix.values.IsFinite)
    (hscaled : ((Scaler.new engine.zeroVariance).fitTransform matrix.values matrix.names).1 = .ok m)
    (hmodel : engine.detector.fit m contamination = .ok forest)
    (hfeatures : forest.features = m.width) (hpos : 0 < m.height) (hfinite : m.IsFinite)
    (now : Time.Instant) : ∃ state summary,
      engine.prepare tree now data contamination = .ok (state, summary) ∧
        summary.anomalyCount = 0 := by
  obtain ⟨statistics, hscaler, -, -, -, htransform⟩ := Scaler.fitTransform_eq_ok hscaled
  let state : TrainedState α (Forest α) :=
    ⟨⟨engine.zeroVariance, some statistics⟩, forest, matrix.names, now⟩
  have hfit : engine.fit now matrix contamination = .ok state := by
    rw [fit, Matrix.ensureFinite_eq_ok_iff.mpr hvalues]
    simp only [bind, Except.bind, hscaled, hscaler, hmodel]
    rfl
  obtain ⟨summary, hsummary, hcount⟩ : ∃ summary,
      summarize state matrix source = .ok summary ∧ summary.anomalyCount = 0 :=
    exists_summarize_of_flagsNothing hflags htransform hfeatures hpos hfinite source
  refine ⟨state, summary, ?_, hcount⟩
  rw [prepare, hmatrix]
  simp only [bind, Except.bind, hfit, hsummary]
  rfl

end Models

variable [LawfulFunctions α] [LawfulRanks α] [LawfulFlatness α] [Numeral α]

/-- A forest can be fitted to every finite level matrix with rows, by all parameters that are
accepted, and it flags nothing. If such a matrix is what a scaler makes of training data, then
nothing but a store can keep an engine from training on them, and the summary counts no outliers.
Single rows are level, and so are constant series however they are standardized. Counts of rows and
trees are machine words. -/
theorem level_data_flag_nothing {chance : Chance σ α} (hdistinct : chance.draws.SamplesDistinct)
    {p : ForestParams α} (hc : IsContamination p.contamination) (hcounts : p.checkCounts = .ok ())
    (hestimators : p.estimators < UInt64.size) {m : Matrix α} (hpos : 0 < m.height)
    (hheight : m.height < UInt64.size) (hfinite : m.IsFinite) (hlevel : m.IsLevel) :
    (∃ forest score, p.fit chance m = .ok forest ∧ forest.features = m.width ∧
      forest.FlagsNothing score) ∧
    (∀ {engine : Engine α (Forest α)} {session : Session α (Forest α)} {data : Option (List α)}
      {matrix : FeatureMatrix α} {source : TrainingSource} (now : Time.Instant),
      engine.detector = p.detector chance →
      engine.trainingMatrix session.disk.tree data = .ok (matrix, source) →
      matrix.values.IsFinite →
      ((Scaler.new engine.zeroVariance).fitTransform matrix.values matrix.names).1 = .ok m →
      (engine.Trains now data p.contamination session ∨
        engine.FailsToStore now data p.contamination session) ∧
      ∀ {summary session'},
        engine.train now data p.contamination session = (.ok summary, session') →
          summary.anomalyCount = 0) ∧
    ∀ scaled : Matrix α, scaled.IsFinite →
      (scaled.height = 1 ∨ ∃ (scaler : Scaler α) (n : ℕ) (x : α),
        scaler.transform (.ofSeries (List.replicate n x)) = .ok scaled) → scaled.IsLevel := by
  obtain ⟨forest, score, hfit, -, hfeatures, hflags⟩ := ForestParams.exists_flagsNothing
    (p := p) hdistinct hfinite hlevel hc hcounts hestimators hpos hheight
  refine ⟨⟨forest, score, hfit, hfeatures, hflags⟩, ?_, ?_⟩
  · intro engine session data matrix source now hdetector hmatrix hvalues hscaled
    have hmodel : engine.detector.fit m p.contamination = .ok forest := by
      rw [hdetector]
      exact hfit
    obtain ⟨state, summary, hprepare, hcount⟩ := exists_prepare_of_flagsNothing hflags hmatrix
      hvalues hscaled hmodel hfeatures hpos hfinite now
    refine ⟨trains_or_failsToStore_iff_prepare.mpr ⟨_, hprepare⟩, ?_⟩
    intro summary' session' htrain
    obtain ⟨state', hprepare', -⟩ := exists_prepare_of_train htrain
    obtain ⟨rfl, rfl⟩ := Prod.mk.injEq .. ▸ Except.ok.inj (hprepare.symm.trans hprepare')
    exact hcount
  · rintro scaled hfinite (hone | ⟨scaler, n, x, htransform⟩)
    · exact Matrix.isLevel_of_height_eq_one hfinite hone
    · exact Matrix.isLevel_of_transform_replicate htransform hfinite

open ForestParams (TabledFloat)

/-- A training on three equal floats flags none of them. -/
theorem level_data_flag_nothing_three : ∃ summary session',
    (oneTreeEngine TabledFloat).train default (some [5, 5, 5]) (1 / Scalar.two)
      (.start (.ofTree .empty)) = (.ok summary, session') ∧ summary.anomalyCount = 0 := by
  have hc : IsContamination (1 / Scalar.two : TabledFloat) := by decide +kernel
  obtain ⟨_, hvalues⟩ := Outcome.exists_of_isOk
    (show (Matrix.ofSeries [(5 : TabledFloat), 5, 5]).ensureFinite.isOk = true by decide +kernel)
  obtain ⟨_, hfit⟩ := Outcome.exists_of_isOk
    (show (((Scaler.new .unitScale).fitTransform (.ofSeries [(5 : TabledFloat), 5, 5])
      ["value"]).1 >>= Matrix.ensureFinite).isOk = true by decide +kernel)
  obtain ⟨scaled, hscaled, hok⟩ := Outcome.exists_of_bind_eq_ok hfit
  have hfinite := Matrix.ensureFinite_eq_ok_iff.mp hok
  have hheight : scaled.height = 3 := Scaler.height_of_fitTransform hscaled
  obtain ⟨_, -, -, -, -, htransform⟩ := Scaler.fitTransform_eq_ok hscaled
  have hlevel : scaled.IsLevel :=
    Matrix.isLevel_of_transform_replicate (n := 3) (x := 5) htransform hfinite
  have hdistinct : (Keystream.chance : Chance Keystream TabledFloat).draws.SamplesDistinct :=
    Keystream.samplesDistinct
  obtain ⟨-, hengine, -⟩ := level_data_flag_nothing (p := oneTree TabledFloat) hdistinct hc
    rfl (by decide) (hheight ▸ by decide) (hheight ▸ by decide) hfinite hlevel
  have hmatrix : (oneTreeEngine TabledFloat).trainingMatrix
      (.start (.ofTree .empty) : Session TabledFloat (Forest TabledFloat)).disk.tree
        (some [5, 5, 5]) = .ok (.ofSeries [5, 5, 5], .provided) :=
    trainingMatrix_of_le (by decide) _
  obtain ⟨hends, hcount⟩ := hengine default (by rfl) hmatrix
    (Matrix.ensureFinite_eq_ok_iff.mp hvalues) hscaled
  rcases hends with ⟨summary, session', htrain⟩ | ⟨_, _, _, _, -, hpersist⟩
  · exact ⟨summary, session', htrain, hcount htrain⟩
  · cases congrArg Prod.fst hpersist

end Engine

end OutlierScoring
