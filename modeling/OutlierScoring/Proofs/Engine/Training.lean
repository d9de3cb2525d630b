import OutlierScoring.Proofs.Engine.Calls
import OutlierScoring.Proofs.Engine.Predictions
import OutlierScoring.Proofs.Number.Order

/-!
# Training forests

A training of a forest falls into two parts. In the first one a matrix is found and standardized, a
forest is grown over it, and its rows are scored: the `Groundwork`, in which the contamination has
no say. In the second one the contamination settles the offset (`Engine.prepare_eq`), and the
summary is put together, which looks once more at the scores of the groundwork
(`Groundwork.IsSound.summarize_eq`).

What is published is therefore sound, and answers series in order
(`Engine.answersInOrder_of_train`).
-/

namespace OutlierScoring

variable {α σ : Type} [Scalar α]

/-- What a training comes to before the contamination has a say. -/
structure Groundwork (α : Type) where
  matrix : FeatureMatrix α
  source : TrainingSource
  /-- The scaler that has learned from the matrix. -/
  scaler : Scaler α
  /-- The matrix by that scaler. -/
  scaled : Matrix α
  /-- The forest that was grown over the standardized matrix. -/
  forest : Forest α
  /-- The scores of its rows. -/
  scores : List α

namespace Groundwork

/-- The state that is trained with a contamination, if it settles the given offset. -/
def state (g : Groundwork α) (now : Time.Instant) (contamination offset : α) :
    TrainedState α (Forest α) where
  scaler := g.scaler
  model := { g.forest with contamination, offset }
  featureNames := g.matrix.names
  trainedAt := now

/-- The parts belong to each other. -/
structure IsSound (g : Groundwork α) : Prop where
  transform_eq : g.scaler.transform g.matrix.values = .ok g.scaled
  scores_eq : g.forest.scores g.scaled = .ok g.scores
  scores_ne_nil : g.scores ≠ []
  exists_statistics : ∃ statistics : Statistics α, g.scaler.statistics = some statistics ∧
    statistics.mean.size = g.forest.features ∧ statistics.scale.size = g.forest.features
  splitsInside : g.forest.SplitsInside
  length_scores : g.scores.length = g.matrix.values.height

omit [Scalar α] in
theorem isTwin_state (g : Groundwork α) (now : Time.Instant) (contamination offset : α) :
    g.forest.IsTwin (g.state now contamination offset).model := ⟨rfl, rfl, rfl⟩

/-- Whatever was settled last, the trained state compares the same scores to its offset. -/
theorem exists_predict_eq (g : Groundwork α) (series : List α) :
    ∃ scores : Outcome α (List α), ∀ now contamination offset,
      (g.state now contamination offset).predict series = scores.map (.ofScores offset) := by
  let m := Matrix.ofSeries series
  refine ⟨if series.isEmpty then .error .emptySeries
    else m.ensureFinite >>= fun _ ↦ g.scaler.transform m >>= g.forest.scores, ?_⟩
  intro now contamination offset
  have hscores := (g.isTwin_state now contamination offset).scores_eq
  rw [TrainedState.predict_eq, TrainedState.score_eq]
  split
  · rfl
  show (m.ensureFinite >>= fun _ ↦ g.scaler.transform m >>= fun scaled ↦
    (g.state now contamination offset).model.scores scaled >>= fun scores ↦
      .ok (Prediction.ofScores offset scores)) = _
  rw [hscores]
  rcases m.ensureFinite with failure | _
  · rfl
  rcases g.scaler.transform m with failure | scaled
  · rfl
  show (g.forest.scores scaled >>= _) = (g.forest.scores scaled).map _
  rcases g.forest.scores scaled with failure | scores
  · rfl
  · rfl

namespace IsSound

variable {g : Groundwork α} (h : g.IsSound) (now : Time.Instant) (contamination offset : α)

include h

/-- Whatever the offset is, the trained state gives the rows of the matrix the scores of the
groundwork. -/
theorem score_eq : (g.state now contamination offset).score g.matrix.values =
    .ok (.ofScores offset g.scores) := by
  have hscores : (g.state now contamination offset).model.scores g.scaled = .ok g.scores := by
    rw [(g.isTwin_state now contamination offset).scores_eq, h.scores_eq]
  rw [TrainedState.score_eq]
  show g.scaler.transform g.matrix.values >>= _ = _
  rw [h.transform_eq]
  show (g.state now contamination offset).model.scores g.scaled >>= _ = _
  rw [hscores]
  rfl

/-- The summary of the trained state is one of the scores of the groundwork. -/
theorem summarize_eq : ∃ scores, ScoreStats.of? (g.scores.map (-·)) = some scores ∧
    Engine.summarize (g.state now contamination offset) g.matrix g.source = .ok {
      samples := g.scores.length
      featureNames := g.matrix.names
      contamination
      scores
      anomalyCount := (Prediction.ofScores offset g.scores).anomalyCount
      threshold := -offset
      source := g.source
      trainedAt := now } := by
  have hlength : (Prediction.ofScores offset g.scores).length = g.scores.length :=
    List.length_map _
  have hne : g.scores.map (-·) ≠ [] := by simpa using h.scores_ne_nil
  obtain ⟨scores, hscores⟩ := ScoreStats.exists_of?_eq_some hne
  refine ⟨scores, hscores, ?_⟩
  rw [Engine.summarize, h.score_eq]
  simp only [bind, Except.bind]
  rw [show (Prediction.ofScores offset g.scores).stats? = some scores from hscores, ← hlength]
  rfl

/-- A trained state is sound. -/
theorem exists_isSound_state :
    ∃ statistics, (g.state now contamination offset).IsSound statistics := by
  obtain ⟨statistics, heq, hmean, hscale⟩ := h.exists_statistics
  exact ⟨statistics, heq, hmean, hscale, h.splitsInside⟩

end IsSound

end Groundwork

namespace Engine

/-- The groundwork of a training. -/
def groundwork (chance : Chance σ α) (p : ForestParams α) (engine : Engine α (Forest α))
    (tree : Files.Tree) (data : Option (List α)) : Outcome α (Groundwork α) := do
  let (matrix, source) ← engine.trainingMatrix tree data
  matrix.values.ensureFinite
  let learned := (Scaler.new engine.zeroVariance).fitTransform matrix.values matrix.names
  let scaled ← learned.1
  let scores ← p.trainingScores chance scaled
  return { matrix, source, scaler := learned.2, scaled, forest := p.grow chance scaled, scores }

variable {chance : Chance σ α} {p : ForestParams α} {engine : Engine α (Forest α)}
  {tree : Files.Tree} {data : Option (List α)}

/-- The fallback data set is all that a groundwork needs of the files. -/
theorem groundwork_congr {twin : Files.Tree}
    (h : engine.fallback.load tree = engine.fallback.load twin) :
    groundwork chance p engine tree data = groundwork chance p engine twin data := by
  rw [groundwork, groundwork, trainingMatrix_congr h]

/-- A groundwork is there only for a training matrix, and its parts belong to each other. -/
theorem isSound_of_groundwork {g : Groundwork α}
    (h : groundwork chance p engine tree data = .ok g) :
    engine.trainingMatrix tree data = .ok (g.matrix, g.source) ∧ g.IsSound := by
  rw [groundwork] at h
  obtain ⟨⟨matrix, source⟩, hmatrix, h⟩ := Outcome.exists_of_bind_eq_ok h
  obtain ⟨_, -, h⟩ := Outcome.exists_of_bind_eq_ok h
  obtain ⟨scaled, hscaled, h⟩ := Outcome.exists_of_bind_eq_ok h
  obtain ⟨scores, hscores, h⟩ := Outcome.exists_of_bind_eq_ok h
  obtain rfl := Except.ok.inj h
  obtain ⟨statistics, hscaler, hmean, hscale, hwidth, htransform⟩ :=
    Scaler.fitTransform_eq_ok hscaled
  obtain ⟨hheight, -, hforest⟩ := ForestParams.exists_of_trainingScores_eq_ok hscores
  have hlength : scores.length = scaled.height := Forest.length_of_scores hforest
  refine ⟨hmatrix, ?_, hforest, ?_, ⟨statistics, ?_, ?_, ?_⟩, p.splitsInside_grow chance scaled, ?_⟩
  · rw [hscaler, htransform]
  · exact List.ne_nil_of_length_pos (hlength ▸ hheight)
  · rw [hscaler]
  · exact hmean.trans hwidth.symm
  · exact hscale.trans hwidth.symm
  · exact hlength.trans (Scaler.height_of_transform htransform)

/-- The contamination has a say in a training only when the groundwork is laid. -/
theorem prepare_eq (hdetector : engine.detector = p.detector chance) (now : Time.Instant)
    {contamination : α} (hc : IsContamination contamination) :
    engine.prepare tree now data contamination =
      groundwork chance p engine tree data >>= fun g ↦
        match quantile? contamination g.scores with
        | some offset =>
          summarize (g.state now contamination offset) g.matrix g.source >>= fun summary ↦
            .ok (g.state now contamination offset, summary)
        | none => .error (.breach .rankOutOfRange) := by
  rw [prepare, groundwork]
  rcases engine.trainingMatrix tree data with failure | ⟨matrix, source⟩
  · rfl
  let learned := (Scaler.new engine.zeroVariance).fitTransform matrix.values matrix.names
  show (matrix.values.ensureFinite >>= fun _ ↦ learned.1 >>= fun scaled ↦
      engine.detector.fit scaled contamination >>= fun model ↦
        .ok (⟨learned.2, model, matrix.names, now⟩ : TrainedState α (Forest α))) >>= _ =
    (matrix.values.ensureFinite >>= fun _ ↦ learned.1 >>= fun scaled ↦ _) >>= _
  rcases matrix.values.ensureFinite with failure | _
  · rfl
  rcases learned.1 with failure | scaled
  · rfl
  show (engine.detector.fit scaled contamination >>= fun model ↦ _) >>= _ =
    (p.trainingScores chance scaled >>= fun scores ↦ _) >>= _
  rw [hdetector, ForestParams.detector_fit_eq chance p scaled hc]
  rcases p.trainingScores chance scaled with failure | scores
  · rfl
  simp only [bind, Except.bind, pure, Except.pure]
  rcases quantile? contamination scores with _ | offset
  · rfl
  · rfl

/-- What a preparation that succeeded has done. -/
theorem exists_groundwork_of_prepare (hdetector : engine.detector = p.detector chance)
    {now : Time.Instant} {contamination : α} {state : TrainedState α (Forest α)}
    {summary : TrainingSummary α}
    (h : engine.prepare tree now data contamination = .ok (state, summary)) :
    IsContamination contamination ∧ ∃ g offset, groundwork chance p engine tree data = .ok g ∧
      quantile? contamination g.scores = some offset ∧ state = g.state now contamination offset ∧
      summarize state g.matrix g.source = .ok summary := by
  have hc : IsContamination contamination := by
    obtain ⟨matrix, source, -, hfit, -⟩ := exists_of_prepare_eq_ok h
    obtain ⟨-, -, -, scaled, -, hmodel, -⟩ := exists_of_fit_eq_ok hfit
    rw [hdetector] at hmodel
    exact (ForestParams.exists_of_fit_eq_ok hmodel).1
  rw [prepare_eq hdetector now hc] at h
  obtain ⟨g, hg, h⟩ := Outcome.exists_of_bind_eq_ok h
  rcases hoffset : quantile? contamination g.scores with _ | offset
  · rw [hoffset] at h
    exact absurd h nofun
  · rw [hoffset] at h
    obtain ⟨summary', hsummary, h⟩ := Outcome.exists_of_bind_eq_ok h
    obtain ⟨rfl, rfl⟩ := Prod.mk.injEq .. ▸ Except.ok.inj h
    exact ⟨hc, g, offset, hg, hoffset, rfl, hsummary⟩

variable [Numeral α] {now : Time.Instant} {contamination : α}
  {session session' : Session α (Forest α)} {summary : TrainingSummary α}

/-- What a training that succeeded has done. -/
theorem exists_groundwork_of_train (hdetector : engine.detector = p.detector chance)
    (h : engine.train now data contamination session = (.ok summary, session')) :
    IsContamination contamination ∧ ∃ g offset,
      groundwork chance p engine session.disk.tree data = .ok g ∧
      quantile? contamination g.scores = some offset ∧
      session'.published = some (g.state now contamination offset) ∧
      summarize (g.state now contamination offset) g.matrix g.source = .ok summary := by
  obtain ⟨state, hprepare, hpublished⟩ := exists_prepare_of_train h
  obtain ⟨hc, g, offset, hg, hoffset, rfl, hsummary⟩ :=
    exists_groundwork_of_prepare hdetector hprepare
  exact ⟨hc, g, offset, hg, hoffset, hpublished, hsummary⟩

/-! ### Success -/

omit [Numeral α] in
/-- A forest can be grown over every finite matrix that stays finite when it is standardized. -/
theorem exists_groundwork_eq_ok {matrix : FeatureMatrix α} {source : TrainingSource}
    {scaled : Matrix α} (hmatrix : engine.trainingMatrix tree data = .ok (matrix, source))
    (hfinite : matrix.values.ensureFinite = .ok ())
    (hscaled : ((Scaler.new engine.zeroVariance).fitTransform matrix.values matrix.names).1 =
      .ok scaled)
    (hscaledFinite : scaled.ensureFinite = .ok ()) (hheight : 0 < scaled.height)
    (hcounts : p.checkCounts = .ok ()) :
    ∃ g, groundwork chance p engine tree data = .ok g := by
  obtain ⟨scores, hscores⟩ := (p.splitsInside_grow chance scaled).exists_scores_eq_ok rfl
    hscaledFinite
  have htraining : p.trainingScores chance scaled = .ok scores := by
    rw [ForestParams.trainingScores, hcounts, if_neg (Nat.ne_of_gt hheight), hscaledFinite]
    exact hscores
  let learned := (Scaler.new engine.zeroVariance).fitTransform matrix.values matrix.names
  refine ⟨⟨matrix, source, learned.2, scaled, p.grow chance scaled, scores⟩, ?_⟩
  simp only [groundwork, hmatrix, hfinite, hscaled, htraining, bind, Except.bind, pure, Except.pure]
  rfl

omit [Numeral α] in
/-- Whatever quantile the scores of a groundwork have, it makes a state of it. -/
theorem exists_prepare_eq_ok (hdetector : engine.detector = p.detector chance) (now : Time.Instant)
    (hc : IsContamination contamination) {g : Groundwork α}
    (hg : groundwork chance p engine tree data = .ok g) {offset : α}
    (hoffset : quantile? contamination g.scores = some offset) :
    ∃ summary, engine.prepare tree now data contamination =
      .ok (g.state now contamination offset, summary) := by
  obtain ⟨scores, -, hsummary⟩ :=
    (isSound_of_groundwork hg).2.summarize_eq now contamination offset
  rw [prepare_eq hdetector now hc, hg]
  simp only [bind, Except.bind, hoffset, hsummary]
  exact ⟨_, rfl⟩

omit [Numeral α] in
/-- A training succeeds on every finite matrix that stays finite when it is standardized. -/
theorem exists_prepare_of_scaled [LawfulRanks α]
    (hdetector : engine.detector = p.detector chance) (now : Time.Instant)
    (hc : IsContamination contamination) (hcounts : p.checkCounts = .ok ())
    {matrix : FeatureMatrix α} {source : TrainingSource} {scaled : Matrix α}
    (hmatrix : engine.trainingMatrix tree data = .ok (matrix, source))
    (hfinite : matrix.values.ensureFinite = .ok ())
    (hscaled : ((Scaler.new engine.zeroVariance).fitTransform matrix.values matrix.names).1 =
      .ok scaled)
    (hscaledFinite : scaled.ensureFinite = .ok ()) :
    ∃ state summary, engine.prepare tree now data contamination = .ok (state, summary) := by
  have hheight : 0 < scaled.height :=
    (Scaler.height_of_fitTransform hscaled).symm ▸ Scaler.height_pos_of_fitTransform hscaled
  obtain ⟨g, hg⟩ : ∃ g, groundwork chance p engine tree data = .ok g :=
    exists_groundwork_eq_ok hmatrix hfinite hscaled hscaledFinite hheight hcounts
  have hsound := (isSound_of_groundwork hg).2
  obtain ⟨offset, hoffset⟩ := exists_quantile?_of_ne_nil hc hsound.scores_ne_nil
  obtain ⟨summary, hprepare⟩ := exists_prepare_eq_ok hdetector now hc hg hoffset
  exact ⟨_, summary, hprepare⟩

/-- A training that has prepared a state comes to what comes of keeping it. -/
theorem train_eq_of_prepare {state : TrainedState α (Forest α)}
    (h : engine.prepare session.disk.tree now data contamination = .ok (state, summary)) :
    engine.train now data contamination session =
      match (engine.persist state).run session.disk with
      | (.error failure, disk) => (.error failure, { session with disk })
      | (.ok (), disk) => (.ok summary, ⟨some state, disk⟩) := by
  rcases hpersist : (engine.persist state).run session.disk with ⟨_ | _, disk⟩ <;>
    simp only [train, h, hpersist]

/-- An engine that does not store states publishes what it has prepared. -/
theorem train_of_prepare (hstore : engine.store = none) {state : TrainedState α (Forest α)}
    (h : engine.prepare session.disk.tree now data contamination = .ok (state, summary)) :
    engine.train now data contamination session = (.ok summary, ⟨some state, session.disk⟩) := by
  have hpersist : engine.persist state = pure () := by
    rw [persist, hstore]
  rw [train_eq_of_prepare h, hpersist]
  rfl

/-- A state that a training has published answers series in order for as long as it is published, by
the threshold that the summary of the training and the description of the engine give. Before there
is a state every series is refused. -/
theorem answersInOrder_of_train [LawfulOrder α] (hdetector : engine.detector = p.detector chance)
    (h : engine.train now data contamination session = (.ok summary, session')) :
    (∃ state, session'.published = some state ∧ state.AnswersInOrder ∧
      summary.threshold = state.threshold ∧
      ∀ later : Session α (Forest α), later.published = some state →
        later.predict = state.predict ∧ (engine.info later).threshold = some state.threshold) ∧
    ∀ untrained : Session α (Forest α), untrained.published = none →
      ∀ series, untrained.predict series = .error .modelNotTrained := by
  obtain ⟨-, g, offset, hg, -, hpublished, hsummary⟩ := exists_groundwork_of_train hdetector h
  obtain ⟨-, hsound⟩ := isSound_of_groundwork hg
  obtain ⟨statistics, hstate⟩ := hsound.exists_isSound_state now contamination offset
  obtain ⟨scores, -, hsummary'⟩ := hsound.summarize_eq now contamination offset
  rw [hsummary] at hsummary'
  refine ⟨⟨_, hpublished, hstate.answersInOrder, ?_, fun later hlater ↦ ?_⟩, ?_⟩
  · rw [Except.ok.inj hsummary']
    rfl
  · refine ⟨funext fun series ↦ ?_, ?_⟩
    · rw [Session.predict, hlater]
    · rw [info, hlater]
      rfl
  · intro untrained hnone series
    rw [Session.predict, hnone]

/-- Parameters for a forest of one tree, which is grown over four rows at most. -/
def oneTree (α : Type) [Scalar α] : ForestParams α where
  estimators := 1
  sampleLimit := 4
  contamination := 1 / Scalar.two
  randomSeed := 0
  workers := none

/-- An engine for one tree that trains on every series and stores nothing. -/
def oneTreeEngine (α : Type) [Scalar α] : Engine α (Forest α) where
  detector := (oneTree α).detector Keystream.chance
  fallback := .ofMatrix "series" (.ofSeries [])
  store := none
  minTrainingSamples := 1
  zeroVariance := .unitScale

omit [Numeral α] in
/-- Whether a series can be trained on shows when it is standardized. -/
theorem exists_prepare_series [LawfulRanks α] (hdetector : engine.detector = p.detector chance)
    (hcounts : p.checkCounts = .ok ()) (hc : IsContamination contamination) {series : List α}
    (hmin : engine.minTrainingSamples ≤ series.length)
    (hfinite : ∀ x ∈ series, Scalar.isFinite x = true)
    (hlearned : (((Scaler.new engine.zeroVariance).fitTransform (.ofSeries series)
      [FeatureMatrix.seriesName]).1 >>= Matrix.ensureFinite).isOk = true)
    (tree : Files.Tree) (now : Time.Instant) :
    ∃ state summary,
      engine.prepare tree now (some series) contamination = .ok (state, summary) := by
  have hvalues : (Matrix.ofSeries series).ensureFinite = .ok () := by
    rw [Matrix.ensureFinite_ofSeries, findIdx?_eq_none_of_finite hfinite]
  obtain ⟨_, hfit⟩ := Outcome.exists_of_isOk hlearned
  obtain ⟨scaled, hscaled, hscaledFinite⟩ := Outcome.exists_of_bind_eq_ok hfit
  exact exists_prepare_of_scaled hdetector now hc hcounts (trainingMatrix_of_le hmin tree) hvalues
    hscaled hscaledFinite

omit [Numeral α] in
/-- What is prepared from a series that is long enough is fitted to it. -/
theorem fit_of_prepare_series {M : Type} [OutlierModel M α] {engine : Engine α M}
    {series : List α} (hlong : engine.minTrainingSamples ≤ series.length) {tree : Files.Tree}
    {state : TrainedState α M}
    (h : engine.prepare tree now (some series) contamination = .ok (state, summary)) :
    engine.fit now (.ofSeries series) contamination = .ok state ∧
      summarize state (.ofSeries series) .provided = .ok summary := by
  obtain ⟨matrix, source, hmatrix, hfit, hsummary⟩ := exists_of_prepare_eq_ok h
  rw [trainingMatrix_of_le hlong] at hmatrix
  obtain ⟨rfl, rfl⟩ := Prod.mk.injEq .. ▸ Except.ok.inj hmatrix
  exact ⟨hfit, hsummary⟩

omit [Numeral α] in
/-- A state answers the series that it was trained on. -/
theorem exists_predict_of_prepare {series : List α} (hne : series ≠ [])
    (hlong : engine.minTrainingSamples ≤ series.length)
    (hfinite : ∀ x ∈ series, Scalar.isFinite x = true) {tree : Files.Tree}
    {state : TrainedState α (Forest α)}
    (h : engine.prepare tree now (some series) contamination = .ok (state, summary)) :
    ∃ prediction, state.predict series = .ok prediction := by
  obtain ⟨-, hsummary⟩ := fit_of_prepare_series hlong h
  -- The summary of a training is made by the prediction for its matrix.
  obtain ⟨prediction, hscore, -⟩ := Outcome.exists_of_bind_eq_ok hsummary
  exact ⟨prediction, (TrainedState.predict_of_finite hne hfinite).trans hscore⟩

/-- A single float is enough for a training. -/
theorem exists_prepare_single {chance : Chance σ Float} {p : ForestParams Float}
    {engine : Engine Float (Forest Float)}
    (hdetector : engine.detector = p.detector chance) (hcounts : p.checkCounts = .ok ())
    (hmin : engine.minTrainingSamples ≤ 1) (hpolicy : engine.zeroVariance = .unitScale)
    (tree : Files.Tree) (now : Time.Instant) :
    ∃ state summary, engine.prepare tree now (some [1]) 0.5 = .ok (state, summary) := by
  have hseries : engine.minTrainingSamples ≤ [(1 : Float)].length := hmin
  refine exists_prepare_series hdetector hcounts (by decide +kernel) hseries (by decide +kernel) ?_
    tree now
  rw [hpolicy]
  decide +kernel

/-- After a training on three floats, predictions for them follow the threshold that the training
has announced, and what is not a number is found where it is. -/
theorem answersInOrder_of_train_three : ∃ summary session' prediction,
    (oneTreeEngine Float).train default (some [1, 2, 4]) 0.5 (.start (.ofTree .empty)) =
      (.ok summary, session') ∧
    session'.predict [1, 2, 4] = .ok prediction ∧ prediction.Follows summary.threshold 3 ∧
    session'.predict [1, 0 / 0, 4] = .error (.nonFiniteValue 1 0) := by
  have hfinite : ∀ x ∈ [(1 : Float), 2, 4], Scalar.isFinite x = true := by decide +kernel
  obtain ⟨state, summary, hprepare⟩ : ∃ state summary,
      (oneTreeEngine Float).prepare .empty default (some [1, 2, 4]) 0.5 = .ok (state, summary) :=
    exists_prepare_series rfl rfl (by decide +kernel) (by decide) hfinite (by decide +kernel)
      .empty default
  have htrain : (oneTreeEngine Float).train default (some [1, 2, 4]) 0.5 (.start (.ofTree .empty)) =
      (.ok summary, _) := train_of_prepare rfl hprepare
  obtain ⟨⟨state', hpublished, hanswers, hthreshold, -⟩, -⟩ :=
    answersInOrder_of_train rfl htrain
  obtain rfl := Option.some.inj hpublished
  obtain ⟨prediction, hpredict⟩ :=
    exists_predict_of_prepare (by decide) (by decide) hfinite hprepare
  obtain ⟨hfit, -⟩ := fit_of_prepare_series (by decide) hprepare
  obtain ⟨statistics, hfitTo⟩ := exists_isFitTo_of_fit rfl hfit
  obtain ⟨mean, scale, -, hscored⟩ := hanswers.scored hfitTo.features_eq
  have hmatch := hscored [1, 2, 4] (by decide) hfinite
  refine ⟨summary, _, prediction, htrain, hpredict, ?_, hanswers.nonFinite [1, 0 / 0, 4] 1 ?_⟩
  · split at hmatch
    · cases hpredict.symm.trans hmatch
    · obtain ⟨prediction', hpredict', hfollows⟩ := hmatch
      obtain rfl := Except.ok.inj (hpredict.symm.trans hpredict')
      exact hthreshold ▸ hfollows
  · decide +kernel

end Engine

end OutlierScoring
