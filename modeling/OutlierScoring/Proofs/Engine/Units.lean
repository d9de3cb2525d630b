import Mathlib
import OutlierScoring.Proofs.Engine.Thresholds
import OutlierScoring.Proofs.Forest.Ranges
import OutlierScoring.Proofs.Standardization
import OutlierScoring.Proofs.Store.Twins

/-!
# Units of measurement

Where nothing is rounded, the units in which a series is measured have no say in what is found in it
(`Engine.units_have_no_say`). A series that varies enough is seen by the detector in deviations from
its mean (`zScores`), and a change of units changes neither of these (`zScores_inUnits`). The units
are written down in the statistics of the scaler and nowhere else, and whether a state can be stored
does not depend on its statistics.
-/

namespace OutlierScoring

/-! ### Series in other units -/

/-- The series in other units, in which `a * x + b` is what `x` was. -/
def inUnits (a b : ℝ) (series : List ℝ) : List ℝ := series.map fun x ↦ a * x + b

/-- How many deviations of the data the points of a series are away from the mean of the data. -/
noncomputable def zScores (data series : List ℝ) : List ℝ :=
  series.map fun x ↦ (x - populationMean data) / √(populationVariance data)

theorem zScores_inUnits {a : ℝ} (ha : 0 < a) (b : ℝ) {data : List ℝ} (hne : data ≠ [])
    (series : List ℝ) : zScores (inUnits a b data) (inUnits a b series) = zScores data series := by
  have hdeviation : √(populationVariance (inUnits a b data)) = a * √(populationVariance data) := by
    rw [inUnits, populationVariance_map_affine, Real.sqrt_mul (sq_nonneg a), Real.sqrt_sq ha.le]
  have hmean : populationMean (inUnits a b data) = a * populationMean data + b :=
    populationMean_map_affine a b hne
  rw [zScores, hdeviation, hmean, inUnits, List.map_map, zScores]
  refine List.map_congr_left fun x _ ↦ ?_
  rw [Function.comp_apply, add_sub_add_right_eq_sub, ← mul_sub, mul_div_mul_left _ _ ha.ne']

theorem ne_nil_of_varies {data : List ℝ} (h : Scalar.epsilon ≤ √(populationVariance data)) :
    data ≠ [] := by
  rintro rfl
  have hzero : √(populationVariance []) = 0 := by simp [populationVariance, populationMean]
  exact absurd (hzero ▸ h) (not_le.mpr Scaler.epsilon_pos)

/-! ### Scalers -/

theorem Matrix.column_ofSeries {α : Type} (series : List α) (j : Fin (ofSeries series).width) :
    (ofSeries series).column j = series := by
  show (series.map fun x ↦ #v[x]).map (·[j]) = series
  rw [List.map_map]
  match j with
  | ⟨0, _⟩ => exact List.map_id series

namespace Scaler

/-- The mean and the deviation of a series. -/
noncomputable def seriesStatistics (data : List ℝ) : Statistics ℝ :=
  ⟨#[populationMean data], #[√(populationVariance data)]⟩

theorem transform_seriesStatistics (policy : ZeroVariance) (data series : List ℝ) :
    (⟨policy, some (seriesStatistics data)⟩ : Scaler ℝ).transform (.ofSeries series) =
      .ok (.ofSeries (zScores data series)) :=
  standardize_ofSeries series (populationMean data) √(populationVariance data)

/-- No policy has a say in what is made of a series that varies enough. -/
theorem fitTransform_series (policy : ZeroVariance) {data : List ℝ}
    (h : Scalar.epsilon ≤ √(populationVariance data)) (names : List String) :
    (new policy).fitTransform (.ofSeries data) names =
      (.ok (.ofSeries (zScores data data)), ⟨policy, some (seriesStatistics data)⟩) := by
  have hscale (j : Fin (Matrix.ofSeries data).width) :
      columnScale policy (.ofSeries data) names j = .ok √(populationVariance data) := by
    have hvaries : ¬(Matrix.ofSeries data).IsFlat j := by
      rw [Matrix.IsFlat, Matrix.column_ofSeries, deviation_real]
      exact not_lt.mpr h
    rw [columnScale_of_not_flat fun _ ↦ hvaries, Matrix.column_ofSeries, keptScale_of_le h]
  have hmean : Vector.ofFn (columnMean (.ofSeries data)) = #v[populationMean data] := by
    refine Vector.ext fun i hi ↦ ?_
    obtain rfl : i = 0 := Nat.lt_one_iff.mp hi
    rw [Vector.getElem_ofFn, columnMean_real, Matrix.column_ofSeries]
    rfl
  have hlearn : learn policy (.ofSeries data) names = .ok (seriesStatistics data) := by
    have hheight : (Matrix.ofSeries data).height ≠ 0 := by
      simpa using ne_nil_of_varies h
    rw [learn, if_neg hheight, hmean, Outcome.mapM_eq_replicate fun j _ ↦ hscale j]
    rfl
  rw [fitTransform, show (new policy : Scaler ℝ).policy = policy from rfl, hlearn]
  exact congrArg (·, _) (transform_seriesStatistics policy data data)

end Scaler

/-! ### Trainings -/

section Models

variable {M : Type} [OutlierModel M ℝ]

/-- The state that a training on a series makes of a model. -/
noncomputable def TrainedState.ofSeries (policy : ZeroVariance) (data : List ℝ) (now : Time.Instant)
    (model : M) : TrainedState ℝ M where
  scaler := ⟨policy, some (Scaler.seriesStatistics data)⟩
  model
  featureNames := (FeatureMatrix.ofSeries data).names
  trainedAt := now

namespace TrainedState

theorem score_ofSeries (policy : ZeroVariance) (data : List ℝ) (now : Time.Instant) (model : M)
    (series : List ℝ) :
    (ofSeries policy data now model).score (.ofSeries series) =
      OutlierModel.scores model (Matrix.ofSeries (zScores data series)) >>= fun scores ↦
        .ok (.ofScores (OutlierModel.offset model) scores) := by
  rw [score_eq, ofSeries, Scaler.transform_seriesStatistics]
  rfl

variable {a : ℝ} (ha : 0 < a) (b : ℝ) {data : List ℝ} (hne : data ≠ [])

include ha hne

theorem score_inUnits (policy : ZeroVariance) (now now' : Time.Instant) (model : M)
    (series : List ℝ) :
    (ofSeries policy (inUnits a b data) now' model).score (.ofSeries (inUnits a b series)) =
      (ofSeries policy data now model).score (.ofSeries series) := by
  rw [score_ofSeries, score_ofSeries, zScores_inUnits ha b hne]

/-- Predictions in other units are those of a state in other units. -/
theorem predict_inUnits (policy : ZeroVariance) (now now' : Time.Instant) (model : M)
    (series : List ℝ) :
    (ofSeries policy (inUnits a b data) now' model).predict (inUnits a b series) =
      (ofSeries policy data now model).predict series := by
  have hempty : (inUnits a b series).isEmpty = series.isEmpty := List.isEmpty_map
  rw [predict_eq, predict_eq, hempty, Matrix.ensureFinite_real, Matrix.ensureFinite_real,
    score_inUnits ha b hne policy now now' model series]

end TrainedState

namespace Engine

variable (engine : Engine ℝ M) {tree : Files.Tree} {data : List ℝ}

omit [OutlierModel M ℝ] in
/-- A detector sees a series in deviations from its mean. -/
theorem fit_ofSeries (h : Scalar.epsilon ≤ √(populationVariance data)) (now : Time.Instant)
    (contamination : ℝ) :
    engine.fit now (.ofSeries data) contamination =
      (engine.detector.fit (.ofSeries (zScores data data)) contamination).map
        (.ofSeries engine.zeroVariance data now) := by
  have hfit := Scaler.fitTransform_series engine.zeroVariance h (FeatureMatrix.ofSeries data).names
  have hvalues : (FeatureMatrix.ofSeries data).values = .ofSeries data := rfl
  rw [fit, hvalues, Matrix.ensureFinite_real, hfit]
  show (engine.detector.fit (.ofSeries (zScores data data)) contamination >>= fun model ↦ _) = _
  rcases engine.detector.fit (.ofSeries (zScores data data)) contamination with failure | model
  · rfl
  · rfl

/-- A training on a long series comes to what comes of the model for its deviations. -/
theorem prepare_ofSeries (hlong : engine.minTrainingSamples ≤ data.length)
    (h : Scalar.epsilon ≤ √(populationVariance data)) (now : Time.Instant) (contamination : ℝ) :
    engine.prepare tree now (some data) contamination =
      engine.detector.fit (.ofSeries (zScores data data)) contamination >>= fun model ↦
        (summarize (.ofSeries engine.zeroVariance data now model) (.ofSeries data) .provided).map
          (TrainedState.ofSeries engine.zeroVariance data now model, ·) := by
  rw [prepare, trainingMatrix_of_le hlong]
  show engine.fit now (.ofSeries data) contamination >>= _ = _
  rw [fit_ofSeries engine h]
  rcases engine.detector.fit (.ofSeries (zScores data data)) contamination with failure | model
  · rfl
  simp only [Except.map, bind, Except.bind]
  rcases summarize (TrainedState.ofSeries engine.zeroVariance data now model) (.ofSeries data)
    .provided with failure | summary
  · rfl
  · rfl

theorem summarize_inUnits {a : ℝ} (ha : 0 < a) (b : ℝ) (hne : data ≠ []) (policy : ZeroVariance)
    (now now' : Time.Instant) (model : M) (source : TrainingSource) :
    summarize (.ofSeries policy (inUnits a b data) now' model) (.ofSeries (inUnits a b data))
        source =
      (summarize (.ofSeries policy data now model) (.ofSeries data) source).map (·.dated now') := by
  have hscore := TrainedState.score_inUnits ha b hne policy now now' model data
  rw [summarize, summarize]
  show ((TrainedState.ofSeries policy (inUnits a b data) now' model).score
    (.ofSeries (inUnits a b data)) >>= _) = Except.map _
      ((TrainedState.ofSeries policy data now model).score (.ofSeries data) >>= _)
  rw [hscore]
  rcases (TrainedState.ofSeries policy data now model).score (.ofSeries data)
    with failure | training
  · rfl
  simp only [bind, Except.bind]
  rcases training.stats? with _ | scores
  · rfl
  · rfl

/-- Trainings on a series in two units are refused for the same cause, or they prepare states of the
same model. -/
theorem prepare_inUnits (tree : Files.Tree) {a : ℝ} (ha : 0 < a) (b : ℝ)
    (hlong : engine.minTrainingSamples ≤ data.length)
    (h : Scalar.epsilon ≤ √(populationVariance data))
    (h' : Scalar.epsilon ≤ √(populationVariance (inUnits a b data))) (now now' : Time.Instant)
    (contamination : ℝ) :
    (∃ failure, engine.prepare tree now (some data) contamination = .error failure ∧
      engine.prepare tree now' (some (inUnits a b data)) contamination = .error failure) ∨
    ∃ model summary, engine.prepare tree now (some data) contamination =
        .ok (.ofSeries engine.zeroVariance data now model, summary) ∧
      engine.prepare tree now' (some (inUnits a b data)) contamination =
        .ok (.ofSeries engine.zeroVariance (inUnits a b data) now' model, summary.dated now') := by
  have hne := ne_nil_of_varies h
  have hlong' : engine.minTrainingSamples ≤ (inUnits a b data).length :=
    hlong.trans_eq (List.length_map _).symm
  rw [prepare_ofSeries engine hlong h, prepare_ofSeries engine hlong' h', zScores_inUnits ha b hne]
  rcases engine.detector.fit (.ofSeries (zScores data data)) contamination with failure | model
  · exact .inl ⟨failure, rfl, rfl⟩
  simp only [bind, Except.bind]
  rw [summarize_inUnits ha b hne engine.zeroVariance now now']
  rcases summarize (TrainedState.ofSeries engine.zeroVariance data now model) (.ofSeries data)
    .provided with failure | summary
  · exact .inl ⟨failure, rfl, rfl⟩
  · exact .inr ⟨model, summary, rfl, rfl⟩

variable [Json.Form M]

omit [OutlierModel M ℝ] in
/-- Whether a state can be stored depends on the disk alone. -/
theorem fst_run_persist_ofSeries (data data' : List ℝ) (policy : ZeroVariance)
    (now now' : Time.Instant) (model : M) (disk : Files.Disk) :
    ((engine.persist (.ofSeries policy data now model)).run disk).1 =
      ((engine.persist (.ofSeries policy data' now' model)).run disk).1 := by
  rw [persist, persist]
  rcases engine.store with _ | store
  · rfl
  · exact store.fst_run_save_eq _ _ _ _ disk

/-- Two engines that are alike are trained on the same series in two units, in both of which it
varies. Both trainings fail for the same cause, or both succeed with the same summary, but for its
time. If they do, then the two published states have the same model, and give every series the same
scores and labels, each in its own units. -/
theorem units_have_no_say {a : ℝ} (ha : 0 < a) (b : ℝ)
    (hlong : engine.minTrainingSamples ≤ data.length)
    (h : Scalar.epsilon ≤ √(populationVariance data))
    (h' : Scalar.epsilon ≤ √(populationVariance (inUnits a b data)))
    {session twin : Session ℝ M} (hdisk : session.disk = twin.disk) (now now' : Time.Instant)
    (contamination : ℝ) :
    (engine.train now' (some (inUnits a b data)) contamination twin).1 =
      (engine.train now (some data) contamination session).1.map (·.dated now') ∧
    ∀ summary session',
      engine.train now (some data) contamination session = (.ok summary, session') →
      ∃ twin' state state',
        engine.train now' (some (inUnits a b data)) contamination twin =
          (.ok (summary.dated now'), twin') ∧
        session'.published = some state ∧ twin'.published = some state' ∧
        state'.model = state.model ∧
        ∀ series, twin'.predict (inUnits a b series) = session'.predict series := by
  have hne := ne_nil_of_varies h
  rcases engine.prepare_inUnits twin.disk.tree ha b hlong h h' now now' contamination with
    ⟨failure, hprepare, hprepare'⟩ | ⟨model, summary, hprepare, hprepare'⟩
  · simp only [train, hdisk, hprepare, hprepare']
    refine ⟨rfl, ?_⟩
    rintro _ _ ⟨⟩
  have hpersist := engine.fst_run_persist_ofSeries data (inUnits a b data) engine.zeroVariance now
    now' model twin.disk
  rcases hrun : (engine.persist (.ofSeries engine.zeroVariance data now model)).run twin.disk
    with ⟨outcome, disk⟩
  rcases hrun' : (engine.persist (.ofSeries engine.zeroVariance (inUnits a b data) now' model)).run
    twin.disk with ⟨outcome', disk'⟩
  obtain rfl : outcome = outcome' := by
    rw [hrun, hrun'] at hpersist
    exact hpersist
  simp only [train, hdisk, hprepare, hprepare', hrun, hrun']
  rcases outcome with failure | _
  · refine ⟨rfl, ?_⟩
    rintro _ _ ⟨⟩
  · refine ⟨rfl, ?_⟩
    rintro _ _ ⟨⟩
    exact ⟨_, _, _, rfl, rfl, rfl, rfl,
      TrainedState.predict_inUnits ha b hne engine.zeroVariance now now' model⟩

end Engine

end Models

/-- The fifth point of a series has the same score in two units, if its first four were trained
on. -/
theorem Engine.units_have_no_say_four : ∃ summary session session',
    (oneTreeEngine ℝ).train default (some [0, 1, 2, 4]) (1 / 2) (.start (.ofTree .empty)) =
      (.ok summary, session) ∧
    (oneTreeEngine ℝ).train default (some [3, 5, 7, 11]) (1 / 2) (.start (.ofTree .empty)) =
      (.ok (summary.dated default), session') ∧
    session'.predict [13] = session.predict [5] := by
  have hc : IsContamination (1 / 2 : ℝ) := isContamination_real.mpr ⟨by norm_num, le_rfl⟩
  obtain ⟨summary, session, htrain⟩ := exists_train_real default hc
  have hdata : inUnits 2 3 [0, 1, 2, 4] = [3, 5, 7, 11] := by norm_num [inUnits]
  have hprobe : inUnits 2 3 [5] = [13] := by norm_num [inUnits]
  have hvaries : 1 ≤ populationVariance [0, 1, 2, 4] := by
    norm_num [populationVariance, populationMean]
  have hvaries' : 1 ≤ populationVariance (inUnits 2 3 [0, 1, 2, 4]) := by
    rw [inUnits, populationVariance_map_affine]
    linarith
  have hdisk : (.start (.ofTree .empty) : Session ℝ (Forest ℝ)).disk =
      (.start (.ofTree .empty) : Session ℝ (Forest ℝ)).disk := rfl
  obtain ⟨-, hsuccess⟩ := (oneTreeEngine ℝ).units_have_no_say two_pos 3 (by decide)
    (Scaler.epsilon_le_one.trans (Real.one_le_sqrt.mpr hvaries))
    (Scaler.epsilon_le_one.trans (Real.one_le_sqrt.mpr hvaries')) hdisk default default (1 / 2)
  obtain ⟨session', _, _, htrain', -, -, -, hpredict⟩ := hsuccess summary session htrain
  rw [hdata] at htrain'
  exact ⟨summary, session, session', htrain, htrain', hprobe ▸ hpredict [5]⟩

end OutlierScoring
