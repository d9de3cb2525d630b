import Mathlib
import OutlierScoring.Proofs.Engine.Training
import OutlierScoring.Proofs.Forest.ExactQuantiles
import OutlierScoring.Proofs.Forest.Persistence

/-!
# Thresholds of trained states

The threshold of a trained state is a quantile of its training scores (`TrainedState.IsSettledBy`).
Where this one quantile is exact, however the scores themselves were rounded, the contamination
bounds how many training rows are outliers for the state itself (`Engine.keepsBudget_of_train`).

The contamination has a say in nothing but the threshold. Trainings that differ in it succeed
together, and give every series the same scores; and the one that expects more outliers has the
lower threshold and finds at least the outliers of the other, as far as both quantiles are exact
(`Engine.trainings_differ_in_threshold`).
-/

namespace OutlierScoring

variable {α σ : Type} [Scalar α]

open OrderedScalar (value)
open ForestParams (TabledFloat)

/-! ### Quantiles of training scores -/

/-- The state gives some scores to the rows of a matrix, and its offset is the quantile of these
scores that the contamination asks for. -/
structure TrainedState.IsSettledBy (state : TrainedState α (Forest α)) (contamination : α)
    (rows : Matrix α) (scores : List α) : Prop where
  exists_scaled : ∃ scaled, state.scaler.transform rows = .ok scaled ∧
    state.model.scores scaled = .ok scores
  length_scores : scores.length = rows.height
  quantile?_eq : quantile? contamination scores = some state.model.offset

/-- What is predicted for the rows are these scores, compared to the offset. -/
theorem TrainedState.IsSettledBy.score_eq {state : TrainedState α (Forest α)} {contamination : α}
    {rows : Matrix α} {scores : List α} (h : state.IsSettledBy contamination rows scores) :
    state.score rows = .ok (.ofScores state.model.offset scores) := by
  obtain ⟨scaled, htransform, hscores⟩ := h.exists_scaled
  rw [TrainedState.score_eq, htransform]
  show state.model.scores scaled >>= _ = _
  rw [hscores]
  rfl

namespace Groundwork.IsSound

variable {g : Groundwork α} (hsound : g.IsSound) {now : Time.Instant} {contamination offset : α}
  {summary : TrainingSummary α}

include hsound

theorem isSettledBy (hoffset : quantile? contamination g.scores = some offset) :
    (g.state now contamination offset).IsSettledBy contamination g.matrix.values g.scores where
  exists_scaled := by
    refine ⟨g.scaled, hsound.transform_eq, ?_⟩
    rw [(g.isTwin_state now contamination offset).scores_eq, hsound.scores_eq]
  length_scores := hsound.length_scores
  quantile?_eq := hoffset

theorem threshold_eq
    (h : Engine.summarize (g.state now contamination offset) g.matrix g.source = .ok summary) :
    summary.threshold = -offset := by
  obtain ⟨stats, -, hsummary⟩ := hsound.summarize_eq now contamination offset
  rw [Except.ok.inj (h.symm.trans hsummary)]

end Groundwork.IsSound

/-! ### Trainings that succeed -/

namespace Engine

/-- Where no number is infinite, every training on a matrix with rows succeeds. -/
theorem exists_prepare_of_forall [LawfulRanks α] {chance : Chance σ α} {p : ForestParams α}
    {engine : Engine α (Forest α)} (hdetector : engine.detector = p.detector chance)
    (hall : ∀ x : α, Scalar.isFinite x = true) (hpolicy : engine.zeroVariance = .unitScale)
    (hcounts : p.checkCounts = .ok ()) {tree : Files.Tree} {data : Option (List α)}
    {matrix : FeatureMatrix α} {source : TrainingSource}
    (hmatrix : engine.trainingMatrix tree data = .ok (matrix, source))
    (hheight : 0 < matrix.values.height) (now : Time.Instant) {c : α} (hc : IsContamination c) :
    ∃ state summary, engine.prepare tree now data c = .ok (state, summary) := by
  obtain ⟨scaled, hscaled⟩ := Scaler.exists_fitTransform_eq_ok hheight matrix.names
  have hfinite (m : Matrix α) : m.ensureFinite = .ok () :=
    Matrix.ensureFinite_eq_ok_iff.mpr fun _ _ x _ ↦ hall x
  exact exists_prepare_of_scaled hdetector now hc hcounts hmatrix (hfinite _) (hpolicy ▸ hscaled)
    (hfinite _)

/-- Four real numbers are enough for a training. -/
theorem exists_train_real (now : Time.Instant) {c : ℝ} (hc : IsContamination c) :
    ∃ summary session',
      (oneTreeEngine ℝ).train now (some [0, 1, 2, 4]) c (.start (.ofTree .empty)) =
        (.ok summary, session') := by
  obtain ⟨state, summary, hprepare⟩ : ∃ state summary,
      (oneTreeEngine ℝ).prepare .empty now (some [0, 1, 2, 4]) c = .ok (state, summary) :=
    exists_prepare_of_forall rfl (fun _ ↦ rfl) rfl rfl rfl (by decide) now hc
  exact ⟨summary, _, train_of_prepare rfl hprepare⟩

theorem isContamination_real {c : ℝ} : IsContamination c ↔ 0 < c ∧ c ≤ 1 / 2 :=
  isContamination_iff c

/-- The scores of a fitted state are finite. Counts of rows, columns and trees are machine words. -/
theorem finite_scores_of_fit [RoundedScalar α] [LawfulFunctions α] {chance : Chance σ α}
    {p : ForestParams α} {engine : Engine α (Forest α)}
    (hdetector : engine.detector = p.detector chance)
    (hdistinct : chance.draws.SamplesDistinct) {now : Time.Instant} {matrix : FeatureMatrix α}
    {contamination : α} {state : TrainedState α (Forest α)}
    (h : engine.fit now matrix contamination = .ok state)
    (hheight : matrix.values.height < UInt64.size) (hwidth : matrix.values.width < UInt64.size)
    (hcount : p.estimators < UInt64.size) {rows : Matrix α} {scores : List α}
    (hscores : state.model.scores rows = .ok scores) :
    ∀ score ∈ scores, Scalar.isFinite score = true := by
  obtain ⟨scaled, hmodel, hscaledHeight, hscaledWidth⟩ := exists_model_of_fit hdetector h
  have hbetween := ForestParams.scores_isBetween_of_fit hdistinct hmodel
    (hscaledHeight.trans_lt hheight) (hscaledWidth.trans_lt hwidth) hcount hscores
  exact fun score hscore ↦ (hbetween score hscore).finite

/-- Five floats. The rank of a quantile of them is four times the fraction. -/
def fiveFloats : List TabledFloat := ([1, 2, 3, 4, 6] : List ℕ).map Nat.cast

theorem exists_prepare_five {c : TabledFloat} (hc : IsContamination c) : ∃ state summary,
    (oneTreeEngine TabledFloat).prepare .empty default (some fiveFloats) c = .ok (state, summary) :=
  exists_prepare_series rfl rfl hc (by decide) (by decide +kernel) (by decide +kernel) .empty
    default

theorem value_half_mul_four : value (0.5 : TabledFloat) * 4 = (2 : ℕ) := by
  show ((4503599627370496 : ℕ) : ℝ) * 2 ^ (-53 : ℤ) * 4 = _
  norm_num

/-- Where four times the fraction is a natural number, the quantile of their scores is exact. -/
theorem isExactQuantile_five {c : TabledFloat} (hc : IsContamination c)
    {state : TrainedState TabledFloat (Forest TabledFloat)} {summary : TrainingSummary TabledFloat}
    (h : (oneTreeEngine TabledFloat).prepare .empty default (some fiveFloats) c =
      .ok (state, summary)) {scores : List TabledFloat}
    (hsettled : state.IsSettledBy c (.ofSeries fiveFloats) scores) {k : ℕ}
    (hvalue : value c * 4 = k) (hfloor : Scalar.floor (c * ((4 : ℕ) : TabledFloat)) = k)
    (hceil : Scalar.ceil (c * ((4 : ℕ) : TabledFloat)) = k) :
    IsExactQuantile c scores state.model.offset := by
  obtain ⟨hfit, -⟩ := fit_of_prepare_series (by decide) h
  obtain ⟨scaled, -, hscores⟩ := hsettled.exists_scaled
  have hlength : scores.length = 5 := hsettled.length_scores
  have hall := finite_scores_of_fit rfl Keystream.samplesDistinct hfit (by decide) (by decide)
    (by decide) hscores
  have hbetween := contamination_isBetween hc
  refine isExactQuantile_of_position (k := k) hall (hlength ▸ by decide) hbetween.finite
    (hbetween.le_high.trans (by norm_num)) ?_ ?_ ?_ hsettled.quantile?_eq
  · rw [hlength]
    exact hvalue
  · rw [hlength]
    exact hfloor
  · rw [hlength]
    exact hceil

end Engine

/-! ### The budget of outliers -/

/-- A summary says how many rows a prediction is for, what the statistics of their scores are, and
how many of them are outliers. -/
structure TrainingSummary.Tallies (summary : TrainingSummary α) (training : Prediction α) :
    Prop where
  samples_eq : summary.samples = training.scores.length
  stats_eq : training.stats? = some summary.scores
  anomalyCount_eq : summary.anomalyCount = training.anomalyCount

/-- What a summary says of the prediction for the training rows, of which `budget` may be
outliers. -/
structure TrainingSummary.KeepsBudget (summary : TrainingSummary α) (training : Prediction α)
    (budget : ℕ) : Prop where
  anomalyCount_le : summary.anomalyCount ≤ budget
  /-- The budget is used up where no two rows have the same score. -/
  anomalyCount_eq_budget : (training.scores.Pairwise fun a b ↦ a < b ∨ b < a) →
    summary.anomalyCount = budget
  min_le_threshold : summary.scores.min ≤ summary.threshold
  threshold_le_max : summary.threshold ≤ summary.scores.max
  /-- Some row is normal. -/
  zero_mem_labels : 0 ∈ training.labels

theorem Groundwork.IsSound.tallies {g : Groundwork α} (hsound : g.IsSound) {now : Time.Instant}
    {contamination offset : α} {summary : TrainingSummary α}
    (h : Engine.summarize (g.state now contamination offset) g.matrix g.source = .ok summary) :
    summary.Tallies (.ofScores offset g.scores) := by
  obtain ⟨stats, hstats, hsummary⟩ := hsound.summarize_eq now contamination offset
  obtain rfl := Except.ok.inj (hsummary.symm.trans h)
  exact ⟨(List.length_map _).symm, hstats, rfl⟩

/-- The greatest and the least of some finite scores are among them, and bound each of them. -/
theorem ScoreStats.bounds [OrderedScalar α] {scores : List α} {stats : ScoreStats α}
    (h : of? scores = some stats) (hfinite : ∀ score ∈ scores, Scalar.isFinite score = true) :
    stats.min ∈ scores ∧ stats.max ∈ scores ∧
      ∀ score ∈ scores, value stats.min ≤ value score ∧ value score ≤ value stats.max := by
  rw [of?] at h
  split at h
  · cases h
  · rename_i hne
    obtain rfl := Option.some.inj h
    have hne : scores ≠ [] := by simpa using hne
    obtain ⟨hleast, hle⟩ := OrderedScalar.least_spec hne hfinite
    obtain ⟨hgreatest, hge⟩ := OrderedScalar.greatest_spec hne hfinite
    exact ⟨hleast, hgreatest, fun score hscore ↦ ⟨hle score hscore, hge score hscore⟩⟩

section Budget

variable [RoundedScalar α] [LawfulOrder α]

theorem Groundwork.IsSound.keepsBudget {g : Groundwork α} (hsound : g.IsSound) {now : Time.Instant}
    {contamination offset : α} (hc : IsContamination contamination)
    (hexact : IsExactQuantile contamination g.scores offset) {summary : TrainingSummary α}
    (h : Engine.summarize (g.state now contamination offset) g.matrix g.source = .ok summary) :
    summary.KeepsBudget (.ofScores offset g.scores)
      ⌈value contamination * (g.matrix.values.height - 1)⌉₊ := by
  obtain ⟨stats, hstats, hsummary⟩ := hsound.summarize_eq now contamination offset
  obtain rfl := Except.ok.inj (hsummary.symm.trans h)
  obtain ⟨-, hnonneg, hhalf⟩ := contamination_isBetween hc
  have hone : value contamination ≤ 1 := hhalf.trans (by norm_num)
  obtain ⟨low, hlow, high, hhigh, hle, hge⟩ := hexact.exists_le_quantile_le hnonneg hone
  have hneg {score : α} (hscore : score ∈ g.scores) :=
    RoundedScalar.neg (hexact.finite_entries score hscore)
  obtain ⟨hthreshold, hvalue⟩ := RoundedScalar.neg hexact.finite
  have hfinite : ∀ score ∈ g.scores.map (-·), Scalar.isFinite score = true :=
    List.forall_mem_map.mpr fun _ hscore ↦ (hneg hscore).1
  obtain ⟨hmin, hmax, hbounds⟩ := ScoreStats.bounds hstats hfinite
  have hcount : (Prediction.ofScores offset g.scores).anomalyCount =
      g.scores.countP (· < offset) := Prediction.anomalyCount_ofScores offset g.scores
  have hpos : 1 ≤ g.scores.length := List.length_pos_of_ne_nil hsound.scores_ne_nil
  rw [← hsound.length_scores, ← Nat.cast_pred hpos]
  constructor
  · show (Prediction.ofScores offset g.scores).anomalyCount ≤ _
    rw [hcount]
    exact hexact.countP_lt_le hone
  · intro hdistinct
    show (Prediction.ofScores offset g.scores).anomalyCount = _
    rw [hcount]
    refine hexact.countP_lt_eq hnonneg hone ((List.pairwise_map.mp hdistinct).imp fun hlt ↦ ?_)
    rw [LawfulOrder.neg_lt_neg_iff, LawfulOrder.neg_lt_neg_iff] at hlt
    exact hlt.symm
  · rw [OrderedScalar.le_iff (hfinite _ hmin) hthreshold, hvalue]
    have hbelow := (hbounds _ (List.mem_map_of_mem hhigh)).1
    rw [(hneg hhigh).2] at hbelow
    exact hbelow.trans (neg_le_neg hge)
  · rw [OrderedScalar.le_iff hthreshold (hfinite _ hmax), hvalue]
    have habove := (hbounds _ (List.mem_map_of_mem hlow)).2
    rw [(hneg hlow).2] at habove
    exact (neg_le_neg hle).trans habove
  · -- The entry that the quantile is not above is not below the offset.
    refine List.mem_map.mpr ⟨high, hhigh, ?_⟩
    rw [Prediction.label_verdictOf, if_neg]
    rw [OrderedScalar.lt_iff (hexact.finite_entries high hhigh) hexact.finite, not_lt]
    exact hge

namespace Engine

variable [Numeral α] {chance : Chance σ α} {p : ForestParams α} {engine : Engine α (Forest α)}

/-- Of the `n` rows of the matrix that a training with the contamination `c` was on, the trained
state itself takes at most `⌈c · (n - 1)⌉` for outliers, if the quantile of their scores is
exact. -/
theorem keepsBudget_of_train (hdetector : engine.detector = p.detector chance)
    {now : Time.Instant} {data : Option (List α)} {contamination : α}
    {session session' : Session α (Forest α)} {summary : TrainingSummary α}
    (h : engine.train now data contamination session = (.ok summary, session')) :
    ∃ matrix source state scores training,
      engine.trainingMatrix session.disk.tree data = .ok (matrix, source) ∧
      session'.published = some state ∧ summary.threshold = state.threshold ∧
      state.IsSettledBy contamination matrix.values scores ∧
      state.score matrix.values = .ok training ∧ summary.Tallies training ∧
      (IsExactQuantile contamination scores state.model.offset →
        summary.KeepsBudget training
          ⌈value contamination * (matrix.values.height - 1)⌉₊) := by
  obtain ⟨hc, g, offset, hg, hoffset, hpublished, hsummary⟩ :=
    exists_groundwork_of_train hdetector h
  obtain ⟨hmatrix, hsound⟩ := isSound_of_groundwork hg
  have hsettled : (g.state now contamination offset).IsSettledBy .. := hsound.isSettledBy hoffset
  exact ⟨g.matrix, g.source, _, g.scores, _, hmatrix, hpublished, hsound.threshold_eq hsummary,
    hsettled, hsettled.score_eq, hsound.tallies hsummary,
    fun hexact ↦ hsound.keepsBudget hc hexact hsummary⟩

/-- Where one half may be outliers, at most two are, of four real numbers as well as of five floats:
`1 / 2 · (4 - 1)` is rounded up, and `1 / 2 · (5 - 1)` need not be. -/
theorem keepsBudget_of_train_half :
    (∃ summary session' state training,
      (oneTreeEngine ℝ).train default (some [0, 1, 2, 4]) (1 / 2) (.start (.ofTree .empty)) =
        (.ok summary, session') ∧
      session'.published = some state ∧ state.score (.ofSeries [0, 1, 2, 4]) = .ok training ∧
      summary.Tallies training ∧ summary.KeepsBudget training 2) ∧
    ∃ summary session' state training,
      (oneTreeEngine TabledFloat).train default (some fiveFloats) 0.5 (.start (.ofTree .empty)) =
        (.ok summary, session') ∧
      session'.published = some state ∧ state.score (.ofSeries fiveFloats) = .ok training ∧
      summary.Tallies training ∧ summary.KeepsBudget training 2 := by
  constructor
  · have hc : IsContamination (1 / 2 : ℝ) := isContamination_real.mpr ⟨by norm_num, le_rfl⟩
    obtain ⟨summary, session', htrain⟩ := exists_train_real default hc
    obtain ⟨matrix, source, state, scores, training, hmatrix, hpublished, -, hsettled, hscore,
      htallies, hkeeps⟩ := keepsBudget_of_train rfl htrain
    obtain rfl : .ofSeries [0, 1, 2, 4] = matrix := congrArg Prod.fst (Except.ok.inj hmatrix)
    have hbudget :
        ⌈value (1 / 2 : ℝ) * ((Matrix.ofSeries [(0 : ℝ), 1, 2, 4]).height - 1)⌉₊ = 2 := by
      show ⌈(1 / 2 : ℝ) * ((4 : ℕ) - 1)⌉₊ = 2
      rw [Nat.ceil_eq_iff two_ne_zero]
      norm_num
    exact ⟨summary, session', state, training, htrain, hpublished, hscore, htallies,
      hbudget ▸ hkeeps (isExactQuantile_real hsettled.quantile?_eq)⟩
  · have hc : IsContamination (0.5 : TabledFloat) := by decide +kernel
    obtain ⟨state, summary, hprepare⟩ := exists_prepare_five hc
    have htrain : (oneTreeEngine TabledFloat).train default (some fiveFloats) 0.5
        (.start (.ofTree .empty)) = (.ok summary, _) := train_of_prepare rfl hprepare
    obtain ⟨matrix, source, _, scores, training, hmatrix, hpublished, -, hsettled, hscore,
      htallies, hkeeps⟩ := keepsBudget_of_train rfl htrain
    obtain rfl := Option.some.inj hpublished
    obtain rfl : .ofSeries fiveFloats = matrix := congrArg Prod.fst (Except.ok.inj hmatrix)
    have hbudget :
        ⌈value (0.5 : TabledFloat) * ((Matrix.ofSeries fiveFloats).height - 1)⌉₊ = 2 := by
      show ⌈value (0.5 : TabledFloat) * ((5 : ℕ) - 1)⌉₊ = 2
      rw [← Nat.cast_pred (by decide)]
      show ⌈value (0.5 : TabledFloat) * (4 : ℕ)⌉₊ = 2
      rw [Nat.cast_ofNat, value_half_mul_four, Nat.ceil_natCast]
    exact ⟨summary, _, state, training, htrain, hpublished, hscore, htallies,
      hbudget ▸ hkeeps (isExactQuantile_five hc hprepare hsettled value_half_mul_four
        (by decide +kernel) (by decide +kernel))⟩

end Engine

end Budget

/-! ### Trainings that differ in the contamination -/

/-- The two sessions give every series the same scores, or refuse it for the same reason. -/
def Session.ScoresAlike (session twin : Session α (Forest α)) : Prop :=
  ∀ series : List α,
    (session.predict series).map (·.scores) = (twin.predict series).map (·.scores)

/-- Every outlier for the first session is an outlier for the second one. -/
def Session.FindsNoMoreThan (session twin : Session α (Forest α)) : Prop :=
  ∀ (series : List α) {prediction other : Prediction α},
    session.predict series = .ok prediction → twin.predict series = .ok other →
      ∀ (i : ℕ) (h : i < prediction.labels.length) (h' : i < other.labels.length),
        prediction.labels[i] = 1 → other.labels[i] = 1

namespace Groundwork

variable (g : Groundwork α) {now now' : Time.Instant} {c c' offset offset' : α}
  {session twin : Session α (Forest α)} (h : session.published = some (g.state now c offset))
  (h' : twin.published = some (g.state now' c' offset'))

include h h'

/-- Sessions whose states go back to the same groundwork compare the same scores to their
offsets. -/
theorem exists_predict_eq_of_published (series : List α) : ∃ scores : Outcome α (List α),
    session.predict series = scores.map (.ofScores offset) ∧
      twin.predict series = scores.map (.ofScores offset') := by
  obtain ⟨scores, hscores⟩ := g.exists_predict_eq series
  refine ⟨scores, ?_, ?_⟩
  · rw [Session.predict, h]
    exact hscores now c offset
  · rw [Session.predict, h']
    exact hscores now' c' offset'

theorem scoresAlike : session.ScoresAlike twin := by
  intro series
  obtain ⟨scores, hsession, htwin⟩ := g.exists_predict_eq_of_published h h' series
  rw [hsession, htwin]
  rcases scores with failure | scores
  · rfl
  · rfl

/-- The one with the lower offset finds fewer outliers. -/
theorem findsNoMoreThan [LawfulOrder α] (hlt : ∀ score : α, score < offset → score < offset') :
    session.FindsNoMoreThan twin := by
  intro series prediction other hprediction hother i hi hi' hlabel
  obtain ⟨scores, hsession, htwin⟩ := g.exists_predict_eq_of_published h h' series
  rw [hsession] at hprediction
  rw [htwin] at hother
  rcases scores with failure | scores
  · cases hprediction
  obtain rfl := Except.ok.inj hprediction
  obtain rfl := Except.ok.inj hother
  simp only [Prediction.ofScores, List.getElem_map, Prediction.label_verdictOf] at hlabel ⊢
  split at hlabel
  · rename_i hbelow
    exact if_pos (hlt _ hbelow)
  · cases hlabel

end Groundwork

/-- What is below a finite number is below every finite number that is not less. It may be below all
finite numbers, which its negative tells. -/
theorem lt_of_lt_of_value_le [RoundedScalar α] [LawfulOrder α] {a b c : α}
    (hb : Scalar.isFinite b = true) (hc : Scalar.isFinite c = true) (h : a < b)
    (hle : value b ≤ value c) : a < c := by
  by_contra hnot
  obtain ⟨hb', hvalue⟩ := RoundedScalar.neg hb
  obtain ⟨hc', hvalue'⟩ := RoundedScalar.neg hc
  rw [← LawfulOrder.neg_lt_neg_iff] at h hnot
  have ha := OrderedScalar.isFinite_of_between hb' hc' h hnot
  rw [OrderedScalar.lt_iff hb' ha, hvalue] at h
  rw [OrderedScalar.lt_iff hc' ha, hvalue', not_lt] at hnot
  linarith

namespace Engine

variable [Numeral α] {chance : Chance σ α} {p : ForestParams α} {engine : Engine α (Forest α)}
  {now : Time.Instant} {data : Option (List α)} {c : α} [LawfulRanks α]

omit [Numeral α] in
/-- Every valid contamination is refused for what the groundwork is refused for. -/
theorem prepare_eq_error_iff (hdetector : engine.detector = p.detector chance)
    (hc : IsContamination c) {tree : Files.Tree} {failure : Failure α} :
    engine.prepare tree now data c = .error failure ↔
      groundwork chance p engine tree data = .error failure := by
  rw [prepare_eq hdetector now hc]
  rcases hg : groundwork chance p engine tree data with failure' | g
  · exact ⟨fun h ↦ congrArg Except.error (Except.error.inj h),
      fun h ↦ congrArg Except.error (Except.error.inj h)⟩
  · obtain ⟨-, hsound⟩ := isSound_of_groundwork hg
    obtain ⟨offset, hoffset⟩ := exists_quantile?_of_ne_nil hc hsound.scores_ne_nil
    obtain ⟨stats, -, hsummary⟩ := hsound.summarize_eq now c offset
    simp only [bind, Except.bind, hoffset, hsummary]
    exact ⟨nofun, nofun⟩

/-- Trainings on the same data with two valid contaminations are refused for the same reasons, so
that both succeed or none of them does, unless a state cannot be stored. If both succeed, then the
trained states give all series the same scores, those of the training rows among them. If the second
contamination is not below the first one, and both quantiles are exact, then the threshold of the
second state is not above that of the first one, and it finds all the outliers of the first one. -/
theorem trainings_differ_in_threshold (hdetector : engine.detector = p.detector chance) {c c' : α}
    (hc : IsContamination c) (hc' : IsContamination c')
    {session twin : Session α (Forest α)}
    (hload : engine.fallback.load session.disk.tree = engine.fallback.load twin.disk.tree)
    (now now' : Time.Instant) (data : Option (List α)) :
    (∀ failure, engine.Refuses now data c session failure ↔
      engine.Refuses now' data c' twin failure) ∧
    (engine.Trains now data c session ∨ engine.FailsToStore now data c session ↔
      engine.Trains now' data c' twin ∨ engine.FailsToStore now' data c' twin) ∧
    ∀ {summary summary' session' twin'},
      engine.train now data c session = (.ok summary, session') →
      engine.train now' data c' twin = (.ok summary', twin') →
        session'.ScoresAlike twin' ∧ ∃ matrix source state state' scores,
          engine.trainingMatrix session.disk.tree data = .ok (matrix, source) ∧
          session'.published = some state ∧ twin'.published = some state' ∧
          state.IsSettledBy c matrix.values scores ∧ state'.IsSettledBy c' matrix.values scores ∧
          ∀ [RoundedScalar α] [LawfulOrder α], c ≤ c' →
            IsExactQuantile c scores state.model.offset →
            IsExactQuantile c' scores state'.model.offset →
              session'.FindsNoMoreThan twin' ∧ summary'.threshold ≤ summary.threshold := by
  have hrefuses (failure : Failure α) : engine.Refuses now data c session failure ↔
      engine.Refuses now' data c' twin failure := by
    rw [refuses_iff, refuses_iff, prepare_eq_error_iff hdetector hc,
      prepare_eq_error_iff hdetector hc', groundwork_congr hload]
  refine ⟨hrefuses, ?_, ?_⟩
  · rw [trains_or_failsToStore_iff, trains_or_failsToStore_iff]
    simp only [hrefuses]
  · intro summary summary' session' twin' htrain htrain'
    obtain ⟨-, g, offset, hg, hoffset, hpublished, hsummary⟩ :=
      exists_groundwork_of_train hdetector htrain
    obtain ⟨-, g', offset', hg', hoffset', hpublished', hsummary'⟩ :=
      exists_groundwork_of_train hdetector htrain'
    -- Both trainings have laid the same groundwork.
    obtain rfl : g = g' := Except.ok.inj (hg.symm.trans ((groundwork_congr hload).trans hg'))
    obtain ⟨hmatrix, hsound⟩ := isSound_of_groundwork hg
    refine ⟨g.scoresAlike hpublished hpublished', g.matrix, g.source, _, _, g.scores, hmatrix,
      hpublished, hpublished', hsound.isSettledBy hoffset, hsound.isSettledBy hoffset', ?_⟩
    intro _ _ hle (hexact : IsExactQuantile c g.scores offset)
      (hexact' : IsExactQuantile c' g.scores offset')
    have hbetween := contamination_isBetween hc
    have hbetween' := contamination_isBetween hc'
    have hmono : value offset ≤ value offset' :=
      hexact.mono hexact' hbetween.low_le
        ((OrderedScalar.le_iff hbetween.finite hbetween'.finite).mp hle)
        (hbetween'.le_high.trans (by norm_num))
    refine ⟨g.findsNoMoreThan hpublished hpublished' fun score hbelow ↦
      lt_of_lt_of_value_le hexact.finite hexact'.finite hbelow hmono, ?_⟩
    obtain ⟨hfinite, hvalue⟩ := RoundedScalar.neg hexact.finite
    obtain ⟨hfinite', hvalue'⟩ := RoundedScalar.neg hexact'.finite
    rw [hsound.threshold_eq hsummary, hsound.threshold_eq hsummary',
      OrderedScalar.le_iff hfinite' hfinite]
    exact hvalue' ▸ hvalue ▸ neg_le_neg hmono

/-- Where one half of five floats may be outliers instead of one quarter, the threshold does not
rise, and no outlier is lost. -/
theorem trainings_differ_in_threshold_five : ∃ summary summary' session' twin',
    (oneTreeEngine TabledFloat).train default (some fiveFloats) 0.25 (.start (.ofTree .empty)) =
      (.ok summary, session') ∧
    (oneTreeEngine TabledFloat).train default (some fiveFloats) 0.5 (.start (.ofTree .empty)) =
      (.ok summary', twin') ∧
    session'.ScoresAlike twin' ∧ session'.FindsNoMoreThan twin' ∧
    summary'.threshold ≤ summary.threshold := by
  have hc : IsContamination (0.25 : TabledFloat) := by decide +kernel
  have hc' : IsContamination (0.5 : TabledFloat) := by decide +kernel
  have hvalue : value (0.25 : TabledFloat) * 4 = (1 : ℕ) := by
    show ((4503599627370496 : ℕ) : ℝ) * 2 ^ (-54 : ℤ) * 4 = _
    norm_num
  obtain ⟨state, summary, hprepare⟩ := exists_prepare_five hc
  obtain ⟨state', summary', hprepare'⟩ := exists_prepare_five hc'
  have htrain : (oneTreeEngine TabledFloat).train default (some fiveFloats) 0.25
      (.start (.ofTree .empty)) = (.ok summary, _) := train_of_prepare rfl hprepare
  have htrain' : (oneTreeEngine TabledFloat).train default (some fiveFloats) 0.5
      (.start (.ofTree .empty)) = (.ok summary', _) := train_of_prepare rfl hprepare'
  have hdetector : (oneTreeEngine TabledFloat).detector =
      (oneTree TabledFloat).detector Keystream.chance := rfl
  obtain ⟨-, -, hdiffer⟩ := trainings_differ_in_threshold hdetector hc hc' rfl default default
    (some fiveFloats)
  obtain ⟨halike, matrix, source, _, _, scores, hmatrix, ⟨⟩, ⟨⟩, hsettled, hsettled', hexact⟩ :=
    hdiffer htrain htrain'
  obtain rfl : .ofSeries fiveFloats = matrix := congrArg Prod.fst (Except.ok.inj hmatrix)
  obtain ⟨hfinds, hthreshold⟩ := hexact (by decide +kernel)
    (isExactQuantile_five hc hprepare hsettled hvalue (by decide +kernel) (by decide +kernel))
    (isExactQuantile_five hc' hprepare' hsettled' value_half_mul_four (by decide +kernel)
      (by decide +kernel))
  exact ⟨summary, summary', _, _, htrain, htrain', halike, hfinds, hthreshold⟩

end Engine

end OutlierScoring
