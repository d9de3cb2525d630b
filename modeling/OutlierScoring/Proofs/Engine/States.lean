import OutlierScoring.Engine.Basic
import OutlierScoring.Proofs.Forest.Scores
import OutlierScoring.Proofs.Scaler.Learning

/-!
# Trained states

What an engine for forests says about the states that it trains, and what predictions need of a
state. A trained state has statistics, and they have as many columns as its forest and its matrix
(`TrainedState.IsFitTo`); the names are those of the matrix, so that the state is coherent if the
matrix has one name per column (`isCoherent_of_fit`). Predictions need the statistics and the model
only (`predict_congr`), and with them they never fail for want of training
(`predict_ne_modelNotTrained`). The time of a training is written down and has no other part in it
(`prepare_dated`).
-/

namespace OutlierScoring

variable {α : Type}

variable [Scalar α]

/-! ### Predictions -/

namespace TrainedState

variable {M : Type} [OutlierModel M α] {state state' : TrainedState α M}

theorem transform_congr {s s' : Scaler α} (h : s.statistics = s'.statistics) (m : Matrix α) :
    s.transform m = s'.transform m := by
  rw [Scaler.transform, Scaler.transform, h]

theorem score_congr (hscaler : state.scaler.statistics = state'.scaler.statistics)
    (hmodel : state.model = state'.model) (m : Matrix α) : state.score m = state'.score m := by
  rw [score, score, transform_congr hscaler, hmodel]

theorem predict_eq (state : TrainedState α M) (series : List α) :
    state.predict series =
      if series.isEmpty then .error .emptySeries
      else
        (Matrix.ofSeries series).ensureFinite >>= fun _ ↦ state.score (Matrix.ofSeries series) := by
  rw [predict]
  split <;> rfl

/-- Predictions depend on the statistics and the model of a state only. -/
theorem predict_congr (hscaler : state.scaler.statistics = state'.scaler.statistics)
    (hmodel : state.model = state'.model) : state.predict = state'.predict := by
  funext series
  rw [predict_eq, predict_eq, score_congr hscaler hmodel]

theorem predictBatch_congr (hscaler : state.scaler.statistics = state'.scaler.statistics)
    (hmodel : state.model = state'.model) : state.predictBatch = state'.predictBatch := by
  funext sequences
  have hitem : state.predictItem = state'.predictItem := by
    funext sequence
    rw [predictItem, predictItem, predict_congr hscaler hmodel]
  rw [predictBatch, predictBatch, hitem]

end TrainedState

/-! ### Failures of predictions -/

/-- What predictions can be refused for. -/
inductive Scaler.RefusesFor (s : Scaler α) : Failure α → Prop
  | untrained : s.statistics = none → RefusesFor s .modelNotTrained
  | emptySeries : RefusesFor s .emptySeries
  | nonFiniteValue (row column : Nat) : RefusesFor s (.nonFiniteValue row column)
  | featureCountMismatch (expected got : Nat) : RefusesFor s (.featureCountMismatch expected got)
  | breach (breach : Breach) : RefusesFor s (.breach breach)

namespace TrainedState

variable {state : TrainedState α (Forest α)}

theorem failsOnly_ensureFinite (s : Scaler α) (m : Matrix α) :
    m.ensureFinite.FailsOnly s.RefusesFor := by
  rw [Matrix.ensureFinite]
  split
  · exact Outcome.failsOnly_ok ()
  · exact Outcome.failsOnly_error (.nonFiniteValue _ _)

theorem failsOnly_transform (s : Scaler α) (m : Matrix α) :
    (s.transform m).FailsOnly s.RefusesFor := by
  rw [Scaler.transform]
  split
  · rename_i hnone
    exact Outcome.failsOnly_error (.untrained hnone)
  · split
    · rw [Scaler.standardize]
      split
      · exact Outcome.failsOnly_error (.breach _)
      · exact Outcome.failsOnly_ok _
    · exact Outcome.failsOnly_error (.featureCountMismatch _ _)

theorem failsOnly_scores (s : Scaler α) (forest : Forest α) (m : Matrix α) :
    (forest.scores m).FailsOnly s.RefusesFor := by
  have hrow (row : Vector α m.width) : (forest.scoreRow row.toList).FailsOnly s.RefusesFor := by
    intro failure hfail
    exact Forest.scoreRow_eq_error hfail ▸ .breach _
  rw [Forest.scores_eq]
  split
  · exact Outcome.failsOnly_error (.featureCountMismatch _ _)
  · exact (failsOnly_ensureFinite s m).bind fun _ ↦ Outcome.failsOnly_mapM hrow _

theorem failsOnly_score (m : Matrix α) : (state.score m).FailsOnly state.scaler.RefusesFor := by
  refine (failsOnly_transform _ m).bind fun scaled ↦ (failsOnly_scores _ _ _).bind fun scores ↦ ?_
  refine Outcome.FailsOnly.bind ?_ fun _ ↦ Outcome.failsOnly_ok _
  exact Outcome.FailsOnly.bind
    ((failsOnly_scores _ _ _).bind fun _ ↦ Outcome.failsOnly_ok _) fun _ ↦ Outcome.failsOnly_ok _

/-- Predictions are refused for nothing else. -/
theorem failsOnly_predict (state : TrainedState α (Forest α)) (series : List α) :
    (state.predict series).FailsOnly state.scaler.RefusesFor := by
  rw [predict_eq]
  split
  · exact Outcome.failsOnly_error .emptySeries
  · exact (failsOnly_ensureFinite _ _).bind fun _ ↦ failsOnly_score _

/-- A state with statistics does not ask for training. -/
theorem predict_ne_modelNotTrained (h : state.scaler.statistics ≠ none) (series : List α) :
    state.predict series ≠ .error .modelNotTrained := by
  intro hfail
  cases failsOnly_predict state series _ hfail with
  | untrained hnone => exact h hnone

/-- A batch never asks for training: what an item fails with is reported as a failure of the
batch. -/
theorem predictBatch_ne_modelNotTrained (state : TrainedState α (Forest α))
    (sequences : List (List α)) : state.predictBatch sequences ≠ .error .modelNotTrained := by
  have hitem (sequence : List α × Nat) :
      (state.predictItem sequence).FailsOnly (· ≠ .modelNotTrained) := by
    rw [predictItem]
    rcases state.predict sequence.1 with failure | prediction
    · cases failure <;> exact Outcome.failsOnly_error nofun
    · exact Outcome.failsOnly_ok _
  intro hfail
  exact Outcome.failsOnly_mapM hitem _ _ hfail rfl

end TrainedState

/-! ### Training -/

/-- What a fitted state has to do with its matrix: the model was fitted to what the scaler made of
the matrix while it learned, and the scaler makes the same of it again. -/
theorem Engine.exists_of_fit_eq_ok {M : Type} {engine : Engine α M}
    {now : Time.Instant} {matrix : FeatureMatrix α} {contamination : α} {state : TrainedState α M}
    (h : engine.fit now matrix contamination = .ok state) :
    0 < matrix.values.height ∧ matrix.values.ensureFinite = .ok () ∧
      state.featureNames = matrix.names ∧
      ∃ scaled, (Scaler.new engine.zeroVariance).fitTransform matrix.values matrix.names =
          (.ok scaled, state.scaler) ∧
        engine.detector.fit scaled contamination = .ok state.model ∧
        state.scaler.transform matrix.values = .ok scaled := by
  obtain ⟨⟨⟩, hfinite, h⟩ := Outcome.exists_of_bind_eq_ok h
  obtain ⟨scaled, hscaled, h⟩ := Outcome.exists_of_bind_eq_ok h
  obtain ⟨model, hmodel, h⟩ := Outcome.exists_of_bind_eq_ok h
  obtain rfl := Except.ok.inj h
  obtain ⟨statistics, hscaler, -, -, -, htransform⟩ := Scaler.fitTransform_eq_ok hscaled
  refine ⟨Scaler.height_pos_of_fitTransform hscaled, hfinite, rfl, scaled, Prod.ext hscaled rfl,
    hmodel, ?_⟩
  show ((Scaler.new engine.zeroVariance).fitTransform matrix.values matrix.names).2.transform
    matrix.values = .ok scaled
  rw [hscaler]
  exact htransform

namespace TrainedState

/-- Statistics, forest and names have the same number of columns. -/
def IsCoherent (state : TrainedState α (Forest α)) : Prop :=
  ∃ statistics, state.scaler.statistics = some statistics ∧
    statistics.mean.size = state.model.features ∧ state.featureNames.length = state.model.features

/-- Statistics and forest have as many columns as a matrix. The names are those of the matrix,
however many it has. -/
structure IsFitTo (state : TrainedState α (Forest α)) (matrix : FeatureMatrix α)
    (statistics : Statistics α) : Prop where
  statistics_eq : state.scaler.statistics = some statistics
  size_mean : statistics.mean.size = matrix.values.width
  size_scale : statistics.scale.size = matrix.values.width
  features_eq : state.model.features = matrix.values.width
  featureNames_eq : state.featureNames = matrix.names

end TrainedState

section Fit

variable {σ : Type} {chance : Chance σ α} {p : ForestParams α} {engine : Engine α (Forest α)}
  (hdetector : engine.detector = p.detector chance) {now : Time.Instant}
  {matrix : FeatureMatrix α} {contamination : α} {state : TrainedState α (Forest α)}

include hdetector

theorem Engine.exists_isFitTo_of_fit (h : engine.fit now matrix contamination = .ok state) :
    ∃ statistics, state.IsFitTo matrix statistics := by
  obtain ⟨-, -, hnames, scaled, hscaled, hmodel, -⟩ := exists_of_fit_eq_ok h
  obtain ⟨statistics, hscaler, hmean, hscale, hwidth, -⟩ :=
    Scaler.fitTransform_eq_ok (congrArg Prod.fst hscaled)
  have hstatistics : state.scaler = ⟨engine.zeroVariance, some statistics⟩ :=
    (congrArg Prod.snd hscaled).symm.trans hscaler
  rw [hdetector] at hmodel
  exact ⟨statistics, congrArg Scaler.statistics hstatistics, hmean, hscale,
    (ForestParams.features_of_fit hmodel).trans hwidth, hnames⟩

/-- The forest of a fitted state is fitted to a matrix of the same shape. -/
theorem Engine.exists_model_of_fit (h : engine.fit now matrix contamination = .ok state) :
    ∃ scaled, ForestParams.fit chance { p with contamination } scaled = .ok state.model ∧
      scaled.height = matrix.values.height ∧ scaled.width = matrix.values.width := by
  obtain ⟨-, -, -, scaled, hlearned, hmodel, -⟩ := exists_of_fit_eq_ok h
  have hscaled := congrArg Prod.fst hlearned
  obtain ⟨-, -, -, -, hwidth, -⟩ := Scaler.fitTransform_eq_ok hscaled
  rw [hdetector] at hmodel
  exact ⟨scaled, hmodel, Scaler.height_of_fitTransform hscaled, hwidth⟩

/-- An engine that fits forests fits coherent states. -/
theorem Engine.isCoherent_of_fit (hnames : matrix.names.length = matrix.values.width)
    (h : engine.fit now matrix contamination = .ok state) : state.IsCoherent := by
  obtain ⟨statistics, hfit⟩ := exists_isFitTo_of_fit hdetector h
  exact ⟨statistics, hfit.statistics_eq, hfit.size_mean.trans hfit.features_eq.symm,
    (congrArg List.length hfit.featureNames_eq).trans (hnames.trans hfit.features_eq.symm)⟩

end Fit

/-! ### The time of a training -/

/-- The state, as if it had been trained at another time. -/
def TrainedState.dated {M : Type} (state : TrainedState α M) (now : Time.Instant) :
    TrainedState α M := { state with trainedAt := now }

/-- The summary, as if it were one of a training at another time. -/
def TrainingSummary.dated (summary : TrainingSummary α) (now : Time.Instant) : TrainingSummary α :=
  { summary with trainedAt := now }

namespace Engine

variable {M : Type} [OutlierModel M α] {engine : Engine α M} {tree twin : Files.Tree}

omit [Scalar α] [OutlierModel M α] in
/-- A series that is long enough is the training matrix itself. -/
theorem trainingMatrix_of_le {series : List α} (hlong : engine.minTrainingSamples ≤ series.length)
    (tree : Files.Tree) :
    engine.trainingMatrix tree (some series) = .ok (.ofSeries series, .provided) := by
  rw [trainingMatrix, Option.filter_some, if_pos (decide_eq_true hlong)]

omit [Scalar α] [OutlierModel M α] in
/-- A training matrix is a series that is long enough, or what comes of the fallback data set. -/
theorem trainingMatrix_cases (engine : Engine α M) (tree : Files.Tree) (data : Option (List α)) :
    (∃ series, data = some series ∧ engine.minTrainingSamples ≤ series.length ∧
      engine.trainingMatrix tree data = .ok (.ofSeries series, .provided)) ∨
    engine.trainingMatrix tree data =
      (engine.fallback.load tree).map (·, .fallback engine.fallback.name) := by
  rw [trainingMatrix]
  split
  · rename_i series hdata
    obtain ⟨hsome, hlong⟩ := Option.filter_eq_some_iff.mp hdata
    exact .inl ⟨series, hsome, of_decide_eq_true hlong, rfl⟩
  · right
    rcases engine.fallback.load tree with failure | matrix
    · rfl
    · rfl

omit [Scalar α] [OutlierModel M α] in
theorem exists_of_trainingMatrix_eq_ok {data : Option (List α)} {matrix : FeatureMatrix α}
    {source : TrainingSource} (h : engine.trainingMatrix tree data = .ok (matrix, source)) :
    (∃ series, data = some series ∧ engine.minTrainingSamples ≤ series.length ∧
      matrix = .ofSeries series) ∨ engine.fallback.load tree = .ok matrix := by
  rcases engine.trainingMatrix_cases tree data with ⟨series, hdata, hlong, hprovided⟩ | hfallback
  · cases h.symm.trans hprovided
    exact .inl ⟨series, hdata, hlong, rfl⟩
  · rcases hload : engine.fallback.load tree with failure | loaded
    · rw [hfallback, hload] at h
      cases h
    · rw [hfallback, hload] at h
      cases h
      exact .inr rfl

omit [Scalar α] [OutlierModel M α] in
/-- The fallback data set is all that a training matrix needs of the files. -/
theorem trainingMatrix_congr (h : engine.fallback.load tree = engine.fallback.load twin)
    (data : Option (List α)) :
    engine.trainingMatrix tree data = engine.trainingMatrix twin data := by
  rw [trainingMatrix, trainingMatrix, h]

omit [OutlierModel M α] in
theorem fit_dated (engine : Engine α M) (now now' : Time.Instant) (matrix : FeatureMatrix α)
    (contamination : α) :
    engine.fit now' matrix contamination =
      (engine.fit now matrix contamination).map (·.dated now') := by
  rw [fit, fit]
  rcases matrix.values.ensureFinite with failure | _
  · rfl
  simp only [bind, Except.bind]
  rcases ((Scaler.new engine.zeroVariance).fitTransform matrix.values matrix.names).1
    with failure | scaled
  · rfl
  simp only
  rcases engine.detector.fit scaled contamination with failure | model
  · rfl
  · rfl

omit [OutlierModel M α] in
theorem trainedAt_of_fit {now : Time.Instant} {matrix : FeatureMatrix α} {contamination : α}
    {state : TrainedState α M} (h : engine.fit now matrix contamination = .ok state) :
    state.trainedAt = now := by
  have htime := engine.fit_dated now now matrix contamination
  rw [h] at htime
  exact congrArg TrainedState.trainedAt (Except.ok.inj htime)

theorem summarize_dated (state : TrainedState α M) (now' : Time.Instant) (matrix : FeatureMatrix α)
    (source : TrainingSource) :
    summarize (state.dated now') matrix source =
      (summarize state matrix source).map (·.dated now') := by
  have hscore : (state.dated now').score matrix.values = state.score matrix.values :=
    TrainedState.score_congr rfl rfl matrix.values
  rw [summarize, summarize, hscore]
  rcases state.score matrix.values with failure | training
  · rfl
  simp only [bind, Except.bind]
  rcases training.stats? with _ | scores
  · rfl
  · rfl

/-- Trainings on the same matrix differ in nothing but their time. -/
theorem prepare_dated_of_trainingMatrix {data : Option (List α)}
    (h : engine.trainingMatrix tree data = engine.trainingMatrix twin data)
    (now now' : Time.Instant) (contamination : α) :
    engine.prepare twin now' data contamination =
      (engine.prepare tree now data contamination).map fun result ↦
        (result.1.dated now', result.2.dated now') := by
  rw [prepare, prepare, h]
  rcases engine.trainingMatrix twin data with failure | ⟨matrix, source⟩
  · rfl
  simp only [bind, Except.bind]
  rw [fit_dated engine now now']
  rcases engine.fit now matrix contamination with failure | state
  · rfl
  simp only [Except.map]
  rw [summarize_dated]
  rcases summarize state matrix source with failure | summary
  · rfl
  · rfl

/-- Trainings on the same data differ in nothing but their time. -/
theorem prepare_dated (h : engine.fallback.load tree = engine.fallback.load twin)
    (now now' : Time.Instant) (data : Option (List α)) (contamination : α) :
    engine.prepare twin now' data contamination =
      (engine.prepare tree now data contamination).map fun result ↦
        (result.1.dated now', result.2.dated now') :=
  prepare_dated_of_trainingMatrix (trainingMatrix_congr h data) now now' contamination

end Engine

end OutlierScoring
