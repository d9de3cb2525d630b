import OutlierScoring.Proofs.Engine.Stored
import OutlierScoring.Proofs.Settings.Checks

/-!
# One engine for all calls, or one for each

A host may keep one engine for all of its calls, or make a fresh engine for each of them, which
restores what the ones before have stored. The second way of working answers as the first does, the
time of a training aside, as long as the published state can be stored (`restarts_answer_alike`).
Nothing keeps an engine from training a state that cannot be stored: the training succeeds and the
files are written, but the next engine cannot read them and takes itself for untrained.

A fresh engine goes on where its store holds no readable state, whatever the cause.
-/

namespace OutlierScoring

open Files Tree
open ForestParams (TabledFloat)

variable {α : Type}

/-! ### Calls and answers -/

/-- A call, and which operations of the disk the device refuses while it is made. -/
structure Invocation (α : Type) where
  call : Call α
  refusals : List Bool

/-- The same call at two times. Restoring is not among the calls: it is what a fresh engine does
before it makes one. -/
inductive Call.Repeats : Call α → Call α → Prop
  | train {now now' : Time.Instant} {data : Option (List α)} {contamination : α} :
      now.IsValid → now'.IsValid →
      Repeats (.train now data contamination) (.train now' data contamination)
  | predict {series : List α} : Repeats (.predict series) (.predict series)
  | predictBatch {sequences : List (List α)} :
      Repeats (.predictBatch sequences) (.predictBatch sequences)
  | info : Repeats .info .info

/-- The same call at two times, with the same refusals. -/
def Invocation.Repeats (invocation again : Invocation α) : Prop :=
  invocation.call.Repeats again.call ∧ invocation.refusals = again.refusals

/-- The answer without the time of the training. -/
def Answer.timeless : Answer α → Answer α
  | .trained outcome => .trained (outcome.map (·.dated default))
  | .described info => .described { info with trainedAt := info.trainedAt.map fun _ ↦ default }
  | answer => answer

/-- A call of an engine and its answer. -/
structure Exchange (α M : Type) where
  /-- The state that was published when the call was made. -/
  found : Option (TrainedState α M)
  call : Call α
  answer : Answer α

variable [Scalar α]

/-- What answers depend on in a state, the time of the training aside. -/
def TrainedState.core {M : Type} (state : TrainedState α M) : TrainedState α M :=
  state.reread.dated default

namespace Engine

section Runs

variable {M : Type} [OutlierModel M α] [Json.Form M] [Numeral α]

/-- Makes the call of an invocation, on the files that the calls before have left. -/
def invoke (engine : Engine α M) (invocation : Invocation α) (session : Session α M) :
    Answer α × Session α M :=
  engine.perform invocation.call ⟨session.published, session.disk.tree, invocation.refusals⟩

/-- One engine makes all the calls. -/
def longLived (engine : Engine α M) : List (Invocation α) → Session α M → List (Exchange α M)
  | [], _ => []
  | invocation :: invocations, session =>
    let (answer, after) := engine.invoke invocation session
    ⟨session.published, invocation.call, answer⟩ :: engine.longLived invocations after

/-- A fresh engine makes each of the calls, after it has restored what is stored. Whether there was
something to restore does not matter. -/
def restarted (engine : Engine α M) : List (Invocation α) → Tree → List (Answer α)
  | [], _ => []
  | invocation :: invocations, tree =>
    let (answer, after) := engine.invoke invocation (engine.restore (.start (.ofTree tree))).2
    answer :: engine.restarted invocations after.disk.tree

end Runs

/-! ### Queries -/

variable {engine : Engine α (Forest α)}

section Queries

variable [Numeral α] {call : Call α} (hquery : call.isQuery = true)

include hquery

theorem perform_query (engine : Engine α (Forest α)) (session : Session α (Forest α)) :
    (engine.perform call session).2 = session := by
  cases call with
  | train => exact absurd hquery nofun
  | restore => exact absurd hquery nofun
  | predict => rfl
  | predictBatch => rfl
  | info => rfl

/-- The answer to a query depends on the core of the published state only. -/
theorem timeless_query_congr (engine : Engine α (Forest α))
    {session session' : Session α (Forest α)}
    (h : session.published.map (·.core) = session'.published.map (·.core)) :
    (engine.perform call session).1.timeless = (engine.perform call session').1.timeless := by
  -- Each of the sessions answers as one with the core of its state does.
  suffices hcore : ∀ (session : Session α (Forest α)) disk,
      (engine.perform call session).1.timeless =
        (engine.perform call ⟨session.published.map (·.core), disk⟩).1.timeless by
    rw [hcore session session.disk, hcore session' session.disk, h]
  rintro ⟨published, disk⟩ disk'
  cases call with
  | train => exact absurd hquery nofun
  | restore => exact absurd hquery nofun
  | predict series =>
    rcases published with _ | state
    · rfl
    · have hpredict : state.predict = state.core.predict := TrainedState.predict_congr rfl rfl
      show Answer.predicted (state.predict series) = .predicted (state.core.predict series)
      rw [hpredict]
  | predictBatch sequences =>
    rcases published with _ | state
    · rfl
    · have hpredict : state.predictBatch = state.core.predictBatch :=
        TrainedState.predictBatch_congr rfl rfl
      show Answer.predictedBatch (state.predictBatch sequences) =
        .predictedBatch (state.core.predictBatch sequences)
      rw [hpredict]
  | info =>
    rcases published with _ | state
    · rfl
    · rfl

/-- An engine that has something to answer with does not answer like one that has nothing. -/
theorem timeless_query_ne (engine : Engine α (Forest α)) {state : TrainedState α (Forest α)}
    (hstate : state.scaler.statistics ≠ none) (disk disk' : Disk) :
    (engine.perform call ⟨some state, disk⟩).1.timeless ≠
      (engine.perform call ⟨none, disk'⟩).1.timeless := by
  intro h
  cases call with
  | train => exact absurd hquery nofun
  | restore => exact absurd hquery nofun
  | predict series =>
    exact TrainedState.predict_ne_modelNotTrained hstate series (Answer.predicted.inj h)
  | predictBatch sequences =>
    exact state.predictBatch_ne_modelNotTrained sequences (Answer.predictedBatch.inj h)
  | info => exact absurd (congrArg ModelInfo.isTrained (Answer.described.inj h)) nofun

/-- An engine that found what it could of the published state answers a query as the engine that
published it does, exactly if that state can be stored. -/
theorem timeless_query_iff (engine : Engine α (Forest α))
    {published restored : Option (TrainedState α (Forest α))}
    (halike : (∀ state ∈ published, state.IsStorable) →
      restored.map (·.core) = published.map (·.core))
    (hnone : ¬(∀ state ∈ published, state.IsStorable) → restored = none ∧
      ∃ state, published = some state ∧ state.scaler.statistics ≠ none) (disk disk' : Disk) :
    (engine.perform call ⟨published, disk⟩).1.timeless =
        (engine.perform call ⟨restored, disk'⟩).1.timeless ↔
      ∀ state ∈ published, state.IsStorable := by
  constructor
  · intro heq
    by_contra hn
    obtain ⟨rfl, state, rfl, hstate⟩ := hnone hn
    exact timeless_query_ne hquery engine hstate _ _ heq
  · intro hstorable
    exact timeless_query_congr hquery engine (halike hstorable).symm

end Queries

/-! ### Runs -/

variable [Numeral α] {store : Store} {published : Option (TrainedState α (Forest α))}
  {tree twin : Tree}

theorem mirrors_start (h : store.IsIncomplete tree) :
    Mirrors store (none : Option (TrainedState α (Forest α))) tree tree :=
  .nothing (.refl _ tree) rfl h

variable [LawfulNumeral α] (hengine : engine.IsStandard store)

include hengine

/-- A fresh engine on the other tree restores what the long-lived one has published, or nothing if
that cannot be stored. -/
theorem restore_of_mirrors (h : Mirrors store published tree twin) :
    ∃ restored, (engine.restore (.start (.ofTree twin))).2 = ⟨restored, .ofTree twin⟩ ∧
      ((∀ state ∈ published, state.IsStorable) →
        restored.map (·.core) = published.map (·.core)) ∧
      (¬(∀ state ∈ published, state.IsStorable) → restored = none ∧
        ∃ state, published = some state ∧ state.scaler.statistics ≠ none) := by
  cases h with
  | nothing hsame hcontent hincomplete =>
    have hscaler : tree.contentAt? store.scaler.place = twin.contentAt? store.scaler.place := by
      rw [contentAt?, contentAt?,
        hsame.find?_eq (Store.not_holdsModel_scaler hengine.places_ne)]
    rw [Store.IsIncomplete, hcontent, hscaler] at hincomplete
    exact ⟨none, restore_start_of_isIncomplete hengine.store_eq hincomplete, fun _ ↦ rfl,
      fun hn ↦ absurd (fun _ hmem ↦ absurd hmem (Option.not_mem_none _)) hn⟩
  | @trained _ _ state now _ hstores hstores' =>
    obtain ⟨hok, hfail⟩ := restore_start_of_stores hengine.store_eq hstores'
    have hstorable : (∀ state' ∈ some state, TrainedState.IsStorable state') ↔
        (state.dated now).IsStorable := by
      simp only [Option.mem_some_iff, forall_eq']
      rfl
    obtain ⟨statistics, hstatistics, -⟩ := hstores.isCoherent
    rw [hstorable]
    by_cases hstate : (state.dated now).IsStorable
    · exact ⟨_, hok hstate, fun _ ↦ rfl, fun hn ↦ absurd hstate hn⟩
    · exact ⟨none, hfail hstate, fun h ↦ absurd h hstate,
        fun _ ↦ ⟨rfl, state, rfl, by rw [hstatistics]; exact Option.some_ne_none _⟩⟩

/-- A call on a long-lived engine and the same call on a fresh one: what they store mirrors each
other again, and the answers are the same unless it was a query about a state that cannot be
stored. -/
theorem invoke_mirrors {session : Session α (Forest α)} {invocation again : Invocation α}
    (h : Mirrors store session.published session.disk.tree twin)
    (hagain : invocation.Repeats again) :
    let result := engine.invoke invocation session
    let result' := engine.invoke again (engine.restore (.start (.ofTree twin))).2
    (result.1.timeless = result'.1.timeless ↔
      (invocation.call.isQuery = true → ∀ state ∈ session.published, state.IsStorable)) ∧
      Mirrors store result.2.published result.2.disk.tree result'.2.disk.tree := by
  obtain ⟨published, tree, _⟩ := session
  obtain ⟨call, refusals⟩ := invocation
  obtain ⟨call', _⟩ := again
  obtain ⟨hcall, rfl⟩ := hagain
  obtain ⟨restored, hrestore, halike, hnone⟩ := restore_of_mirrors hengine h
  rw [hrestore]
  have hquery (hquery : call.isQuery = true) :
      ((engine.perform call ⟨published, tree, refusals⟩).1.timeless =
        (engine.perform call ⟨restored, twin, refusals⟩).1.timeless ↔
        (call.isQuery = true → ∀ state ∈ published, state.IsStorable)) ∧
      Mirrors store (engine.perform call ⟨published, tree, refusals⟩).2.published
        (engine.perform call ⟨published, tree, refusals⟩).2.disk.tree
        (engine.perform call ⟨restored, twin, refusals⟩).2.disk.tree := by
    rw [perform_query hquery, perform_query hquery]
    have hiff := timeless_query_iff hquery engine halike hnone ⟨tree, refusals⟩ ⟨twin, refusals⟩
    exact ⟨hiff.trans ⟨fun hstorable _ ↦ hstorable, fun hstorable ↦ hstorable hquery⟩, h⟩
  cases hcall with
  | train hnow hnow' =>
    -- A training does not look at the published state, so what was restored does not matter.
    obtain ⟨hanswer, hmirrors⟩ := mirrors_train hengine h restored hnow hnow' _ _ refusals
    exact ⟨⟨fun _ ↦ nofun, fun _ ↦ congrArg Answer.trained hanswer⟩, hmirrors⟩
  | predict => exact hquery rfl
  | predictBatch => exact hquery rfl
  | info => exact hquery rfl

theorem forall₂_longLived_restarted {invocations again : List (Invocation α)}
    (hagain : List.Forall₂ Invocation.Repeats invocations again)
    {session : Session α (Forest α)} (h : Mirrors store session.published session.disk.tree twin) :
    List.Forall₂
      (fun exchange answer ↦ exchange.answer.timeless = answer.timeless ↔
        (exchange.call.isQuery = true → ∀ state ∈ exchange.found, state.IsStorable))
      (engine.longLived invocations session) (engine.restarted again twin) := by
  -- The invariant is that the stored state mirrors the published one, before each of the calls.
  induction hagain generalizing session twin with
  | nil => exact .nil
  | cons hfirst _ ih =>
    obtain ⟨hanswer, hmirrors⟩ := invoke_mirrors hengine h hfirst
    exact .cons hanswer (ih hmirrors)

omit hengine [LawfulNumeral α] in
/-- The engine that settings describe, if they ask for two different files. -/
theorem isStandard_of_new {s : Settings α} {engine : Engine α (Forest α)} (h : new s = .ok engine)
    (hpersist : s.storage.persist = true)
    (hplaces : (Path.ofText s.storage.scalerPath).place ≠ (Path.ofText s.storage.modelPath).place) :
    engine.IsStandard ⟨s.storage.modelPath, s.storage.scalerPath⟩ := by
  rw [new] at h
  rcases hvalid : s.validate with fault | _
  · rw [hvalid] at h
    exact absurd h nofun
  · rw [hvalid] at h
    obtain rfl := Except.ok.inj h
    exact ⟨⟨_, _, _, rfl⟩, ⟨_, rfl⟩, if_pos hpersist, hplaces⟩

omit hengine in
/-- A fresh engine for each call, which restores what was stored before, answers every call as one
engine for all calls does, the time of a training aside, except for queries about a published state
that cannot be stored: these it answers otherwise. -/
theorem restarts_answer_alike {s : Settings α} {engine : Engine α (Forest α)}
    (hnew : new s = .ok engine) (hpersist : s.storage.persist = true)
    (hplaces : (Path.ofText s.storage.scalerPath).place ≠ (Path.ofText s.storage.modelPath).place)
    {tree : Tree} (hmissing : Store.IsIncomplete ⟨s.storage.modelPath, s.storage.scalerPath⟩ tree)
    {invocations again : List (Invocation α)}
    (hagain : List.Forall₂ Invocation.Repeats invocations again) :
    List.Forall₂
      (fun exchange answer ↦ exchange.answer.timeless = answer.timeless ↔
        (exchange.call.isQuery = true → ∀ state ∈ exchange.found, state.IsStorable))
      (engine.longLived invocations (.start (.ofTree tree))) (engine.restarted again tree) :=
  forall₂_longLived_restarted (isStandard_of_new hnew hpersist hplaces) hagain
    (mirrors_start hmissing)

end Engine

/-! ### Two runs -/

/-- A training on a series and a prediction for it, at one time or at another. -/
def trainAndPredict (now : Time.Instant) (series : List TabledFloat) :
    List (Invocation TabledFloat) :=
  [⟨.train now (some series) defaultContamination, []⟩, ⟨.predict series, []⟩]

/-- Ten values, of which every other one is the same. -/
def alternating (x y : TabledFloat) : List TabledFloat := [x, y, x, y, x, y, x, y, x, y]

/-- The store of the default settings. -/
def defaultStore : Store := ⟨"models/anomaly_model.json", "models/scaler.json"⟩

/-- A save where there are no files yet does not look into what it stores. -/
theorem exists_run_replace_defaultStore (model scaler : ByteArray) : ∃ disk,
    (defaultStore.replace model scaler : Store.Step TabledFloat Unit).run (.ofTree .empty) =
      (.ok (), disk) :=
  ⟨_, Prod.ext rfl rfl⟩

namespace Engine

variable {engine : Engine TabledFloat (Forest TabledFloat)}

theorem parts_of_new_default (hnew : new (Settings.default : Settings TabledFloat) = .ok engine) :
    engine.detector =
      (ForestParams.ofSettings {} : ForestParams TabledFloat).detector Keystream.chance ∧
    engine.store = some defaultStore ∧ engine.minTrainingSamples = 10 ∧
    engine.zeroVariance = .unitScale := by
  have hc : IsContamination (defaultContamination : TabledFloat) := by decide +kernel
  rw [new, Settings.validate_default hc] at hnew
  obtain rfl := Except.ok.inj hnew
  exact ⟨rfl, rfl, rfl, rfl⟩

/-- By the default settings, an engine can be trained on a long series that is standardized without
overflow. Whether the state can be stored is for the statistics to say. -/
theorem exists_longLived_default
    (hnew : new (Settings.default : Settings TabledFloat) = .ok engine) (now : Time.Instant)
    {series : List TabledFloat} (hlong : 10 ≤ series.length) (hshort : series.length < UInt64.size)
    (hfinite : ∀ x ∈ series, Scalar.isFinite x = true)
    (hlearned : (((Scaler.new .unitScale).fitTransform (.ofSeries series)
      [FeatureMatrix.seriesName]).1 >>= Matrix.ensureFinite).isOk = true) :
    ∃ state summary prediction,
      engine.longLived (trainAndPredict now series) (.start (.ofTree .empty)) =
        [⟨none, .train now (some series) defaultContamination, .trained (.ok summary)⟩,
          ⟨some state, .predict series, .predicted (.ok prediction)⟩] ∧
      (state.IsStorable ↔ ((Scaler.new .unitScale).fitTransform (.ofSeries series)
        [FeatureMatrix.seriesName]).2.statistics.all
          (fun statistics ↦ (statistics.mean ++ statistics.scale).all Scalar.isFinite) = true) := by
  obtain ⟨hdetector, hstore, hmin, hpolicy⟩ := parts_of_new_default hnew
  have hc : IsContamination (defaultContamination : TabledFloat) := by decide +kernel
  have hne : series ≠ [] := List.ne_nil_of_length_pos ((Nat.succ_pos 9).trans_le hlong)
  rw [← hmin] at hlong
  rw [← hpolicy] at hlearned ⊢
  obtain ⟨state, summary, hprepare⟩ :=
    exists_prepare_series hdetector rfl hc hlong hfinite hlearned .empty now
  obtain ⟨prediction, hpredict⟩ := exists_predict_of_prepare hne hlong hfinite hprepare
  obtain ⟨disk, htrain⟩ := exists_train_of_prepare hdetector hstore (.start (.ofTree .empty))
    exists_run_replace_defaultStore hprepare
  obtain ⟨hfit, -⟩ := fit_of_prepare_series hlong hprepare
  refine ⟨state, summary, prediction, ?_, ?_⟩
  · have hfirst : engine.invoke ⟨.train now (some series) defaultContamination, []⟩
        (.start (.ofTree .empty)) = (.trained (.ok summary), ⟨some state, disk⟩) :=
      congrArg (Prod.map Answer.trained id) htrain
    have hsecond : engine.invoke ⟨.predict series, []⟩ ⟨some state, disk⟩ =
        (.predicted (.ok prediction), ⟨some state, disk.tree, []⟩) :=
      Prod.ext (congrArg Answer.predicted hpredict) rfl
    simp only [trainAndPredict, longLived, hfirst, hsecond]
    rfl
  · have hheight : (FeatureMatrix.ofSeries series).values.height < UInt64.size := by
      rw [FeatureMatrix.ofSeries, Matrix.height_ofSeries]
      exact hshort
    have hwidth : (FeatureMatrix.ofSeries series).values.width < UInt64.size / 2 :=
      show 1 < UInt64.size / 2 by decide
    exact isStorable_iff_of_fit hdetector Keystream.samplesDistinct hfit hheight (by decide) hwidth

/-- Where a training succeeds and is followed by a prediction, the same prediction is made after a
restart exactly if the trained state can be stored. -/
theorem exists_answer_of_forall₂ {now : Time.Instant} {series : List TabledFloat}
    {state : TrainedState TabledFloat (Forest TabledFloat)} {summary : TrainingSummary TabledFloat}
    {prediction : Prediction TabledFloat} {answers : List (Answer TabledFloat)}
    (h : List.Forall₂
      (fun (exchange : Exchange TabledFloat (Forest TabledFloat)) answer ↦
        exchange.answer.timeless = answer.timeless ↔
          (exchange.call.isQuery = true → ∀ state ∈ exchange.found, state.IsStorable))
      [⟨none, .train now (some series) defaultContamination, .trained (.ok summary)⟩,
        ⟨some state, .predict series, .predicted (.ok prediction)⟩] answers) :
    ∃ answer, answers.map (·.timeless) = [.trained (.ok (summary.dated default)), answer] ∧
      (answer = .predicted (.ok prediction) ↔ state.IsStorable) := by
  obtain _ | ⟨htrained, _ | ⟨hpredicted, ⟨⟩⟩⟩ := h
  rename_i trained predicted
  have htrained : trained.timeless = .trained (.ok (summary.dated default)) :=
    (htrained.mpr fun hquery ↦ absurd hquery Bool.false_ne_true).symm
  refine ⟨predicted.timeless, ?_, eq_comm.trans (hpredicted.trans ?_)⟩
  · rw [List.map_cons, htrained]
    rfl
  · exact ⟨fun hstorable ↦ hstorable rfl state rfl,
      fun hstorable _ other hother ↦ Option.some.inj hother ▸ hstorable⟩

/-- Two engines by the default settings are trained on ten values, and make a prediction for them.
Where the values are small, both predictions are the same. Where their deviation is too large for a
float, the engine that was started again predicts something else than the one that was trained. -/
theorem restarts_answer_alike_alternating : ∃ engine,
    new (Settings.default : Settings TabledFloat) = .ok engine ∧
    (∃ summary prediction,
      (engine.longLived (trainAndPredict default (alternating 1 2)) (.start (.ofTree .empty))).map
          (·.answer.timeless) = [.trained (.ok summary), .predicted (.ok prediction)] ∧
      (engine.restarted (trainAndPredict ⟨1, 0, 0⟩ (alternating 1 2)) .empty).map
          (·.timeless) = [.trained (.ok summary), .predicted (.ok prediction)]) ∧
    ∃ summary prediction answer,
      (engine.longLived (trainAndPredict default (alternating 1e200 (-1e200)))
          (.start (.ofTree .empty))).map (·.answer.timeless) =
        [.trained (.ok summary), .predicted (.ok prediction)] ∧
      (engine.restarted (trainAndPredict ⟨1, 0, 0⟩ (alternating 1e200 (-1e200))) .empty).map
          (·.timeless) = [.trained (.ok summary), answer] ∧
      answer ≠ .predicted (.ok prediction) := by
  have hc : IsContamination (defaultContamination : TabledFloat) := by decide +kernel
  obtain ⟨engine, hnew⟩ :
      ∃ engine, new (Settings.default : Settings TabledFloat) = .ok engine := by
    rw [new, Settings.validate_default hc]
    exact ⟨_, rfl⟩
  have hnow : (default : Time.Instant).IsValid := ⟨by decide, by decide, by decide, by decide⟩
  have hnow' : Time.Instant.IsValid ⟨1, 0, 0⟩ := ⟨by decide, by decide, by decide, by decide⟩
  have hmissing : defaultStore.IsIncomplete .empty := .inl rfl
  have hagain (series : List TabledFloat) : List.Forall₂ Invocation.Repeats
      (trainAndPredict default series) (trainAndPredict ⟨1, 0, 0⟩ series) :=
    .cons ⟨.train hnow hnow', rfl⟩ (.cons ⟨.predict, rfl⟩ .nil)
  have hruns (series : List TabledFloat) :=
    restarts_answer_alike hnew rfl (by decide) hmissing (hagain series)
  refine ⟨engine, hnew, ?_, ?_⟩
  · obtain ⟨state, summary, prediction, hanswers, hstorable⟩ := exists_longLived_default hnew
      default (show 10 ≤ (alternating 1 2).length by decide) (by decide) (by decide +kernel)
      (by decide +kernel)
    obtain ⟨answer, hrestarted, hanswer⟩ := exists_answer_of_forall₂ (hanswers ▸ hruns _)
    rw [hanswer.mpr (hstorable.mpr (by decide +kernel))] at hrestarted
    exact ⟨summary.dated default, prediction, hanswers ▸ rfl, hrestarted⟩
  · obtain ⟨state, summary, prediction, hanswers, hstorable⟩ := exists_longLived_default hnew
      default (show 10 ≤ (alternating 1e200 (-1e200)).length by decide) (by decide)
      (by decide +kernel) (by decide +kernel)
    obtain ⟨answer, hrestarted, hanswer⟩ := exists_answer_of_forall₂ (hanswers ▸ hruns _)
    refine ⟨summary.dated default, prediction, answer, hanswers ▸ rfl, hrestarted, fun h ↦ ?_⟩
    exact absurd (hstorable.mp (hanswer.mp h)) (by decide +kernel)

end Engine

end OutlierScoring
