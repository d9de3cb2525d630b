import OutlierScoring.Engine.Basic
import OutlierScoring.Proofs.Files.Ends

/-!
# Calls of an engine and what they build

A `Call` is an operation of an engine with its arguments, an `Answer` is what came of it, and
`Engine.perform` makes the one of the other. `Engine.Builds` says, apart from the session, which
state a call builds: a training fits it to the matrix that its data stand for, a restoring takes it
from the two files.

A step is then described completely by two facts: a call that succeeds publishes the state that it
builds (`exists_builds_of_isSuccess`), and any other call publishes nothing
(`published_perform_of_not_isSuccess`). Nothing after this module looks into an operation again.
-/

namespace OutlierScoring

/-- An operation of an engine, with its arguments. -/
inductive Call (α : Type) where
  | train (now : Time.Instant) (data : Option (List α)) (contamination : α)
  | restore
  | predict (series : List α)
  | predictBatch (sequences : List (List α))
  | info

/-- What came of a call. -/
inductive Answer (α : Type) where
  | trained (outcome : Outcome α (TrainingSummary α))
  | restored (outcome : Outcome α Bool)
  | predicted (outcome : Outcome α (Prediction α))
  | predictedBatch (outcome : Outcome α (List (SequencePrediction α)))
  | described (info : ModelInfo α)

/-- A call as it went. -/
structure Record (α : Type) where
  /-- The disk that the call found. -/
  disk : Files.Disk
  call : Call α
  answer : Answer α

variable {α M : Type}

/-- The call only asks, so that its answer depends on nothing but the published state. -/
def Call.isQuery : Call α → Bool
  | train .. => false
  | restore => false
  | predict _ => true
  | predictBatch _ => true
  | info => true

/-- A training that came to a summary, or a restoring that found a state. -/
def Answer.isSuccess : Answer α → Bool
  | trained (.ok _) => true
  | restored (.ok found) => found
  | _ => false

theorem Answer.isSuccess_trained_iff {outcome : Outcome α (TrainingSummary α)} :
    (trained outcome).isSuccess = true ↔ ∃ summary, outcome = .ok summary := by
  rcases outcome with failure | summary
  · simp [isSuccess]
  · simp [isSuccess]

theorem Answer.isSuccess_restored_iff {outcome : Outcome α Bool} :
    (restored outcome).isSuccess = true ↔ outcome = .ok true := by
  rcases outcome with failure | found
  · simp [isSuccess]
  · simp [isSuccess]

namespace Engine

variable [Scalar α] [OutlierModel M α] [Json.Form M] [Numeral α]

/-- Makes a call. -/
def perform (engine : Engine α M) (call : Call α) (session : Session α M) :
    Answer α × Session α M :=
  match call with
  | .train now data contamination =>
    (engine.train now data contamination session).map .trained id
  | .restore => (engine.restore session).map .restored id
  | .predict series => (.predicted (session.predict series), session)
  | .predictBatch sequences => (.predictedBatch (session.predictBatch sequences), session)
  | .info => (.described (engine.info session), session)

/-- The state that a successful call builds, said without the session: the state fitted to the
training matrix, with its summary, or the coherent one of the two stored parts. -/
inductive Builds (engine : Engine α M) : Record α → TrainedState α M → Prop
  | trained {disk : Files.Disk} {now : Time.Instant} {data : Option (List α)} {contamination : α}
      {matrix : FeatureMatrix α} {source : TrainingSource} {state : TrainedState α M}
      {summary : TrainingSummary α} :
      engine.trainingMatrix disk.tree data = .ok (matrix, source) →
      engine.fit now matrix contamination = .ok state →
      summarize state matrix source = .ok summary →
      Builds engine ⟨disk, .train now data contamination, .trained (.ok summary)⟩ state
  | restored {disk : Files.Disk} {store : Store} {blob : Blob M} {statistics : Statistics α}
      {state : TrainedState α M} :
      engine.store = some store →
      (store.load.run disk).1 = .ok (some (blob, statistics)) →
      coherent store blob statistics = .ok state →
      Builds engine ⟨disk, .restore, .restored (.ok true)⟩ state

/-! ### Training -/

omit [Json.Form M] [Numeral α] in
/-- A preparation that succeeds goes through its three stages. -/
theorem exists_of_prepare_eq_ok {engine : Engine α M} {tree : Files.Tree} {now : Time.Instant}
    {data : Option (List α)} {contamination : α} {state : TrainedState α M}
    {summary : TrainingSummary α}
    (h : engine.prepare tree now data contamination = .ok (state, summary)) :
    ∃ matrix source, engine.trainingMatrix tree data = .ok (matrix, source) ∧
      engine.fit now matrix contamination = .ok state ∧
      summarize state matrix source = .ok summary := by
  rw [prepare] at h
  rcases hm : engine.trainingMatrix tree data with failure | ⟨matrix, source⟩
  · rw [hm] at h
    exact absurd h nofun
  rw [hm] at h
  rcases hf : engine.fit now matrix contamination with failure | fitted
  · simp [bind, Except.bind, hf] at h
  rcases hs : summarize fitted matrix source with failure | summed
  · simp [bind, Except.bind, hf, hs] at h
  simp only [bind, Except.bind, hf, hs, pure, Except.pure, Except.ok.injEq, Prod.mk.injEq] at h
  obtain ⟨rfl, rfl⟩ := h
  exact ⟨matrix, source, rfl, hf, hs⟩

/-- All that a training can do: refuse the data, fail to store the new state, or store and publish
it. -/
theorem train_cases (engine : Engine α M) (now : Time.Instant) (data : Option (List α))
    (contamination : α) (session : Session α M) :
    (∃ failure, engine.prepare session.disk.tree now data contamination = .error failure ∧
      engine.train now data contamination session = (.error failure, session)) ∨
    (∃ state summary failure disk,
      engine.prepare session.disk.tree now data contamination = .ok (state, summary) ∧
      (engine.persist state).run session.disk = (.error failure, disk) ∧
      engine.train now data contamination session = (.error failure, { session with disk })) ∨
    (∃ state summary disk,
      engine.prepare session.disk.tree now data contamination = .ok (state, summary) ∧
      (engine.persist state).run session.disk = (.ok (), disk) ∧
      engine.train now data contamination session = (.ok summary, ⟨some state, disk⟩)) := by
  rw [train]
  rcases hp : engine.prepare session.disk.tree now data contamination
    with failure | ⟨state, summary⟩
  · exact .inl ⟨failure, rfl, rfl⟩
  rcases hs : (engine.persist state).run session.disk with ⟨failure | ⟨⟩, disk⟩
  · exact .inr (.inl ⟨state, summary, failure, disk, rfl, hs, by simp only [hs]⟩)
  · exact .inr (.inr ⟨state, summary, disk, rfl, hs, by simp only [hs]⟩)

/-- A training that succeeds stores the state that it has prepared, and publishes it. -/
theorem exists_persist_of_train {engine : Engine α M} {now : Time.Instant} {data : Option (List α)}
    {contamination : α} {session session' : Session α M} {summary : TrainingSummary α}
    (h : engine.train now data contamination session = (.ok summary, session')) :
    ∃ state, engine.prepare session.disk.tree now data contamination = .ok (state, summary) ∧
      (engine.persist state).run session.disk = (.ok (), session'.disk) ∧
      session'.published = some state := by
  rcases engine.train_cases now data contamination session with
    ⟨failure, -, ht⟩ | ⟨_, _, failure, disk, -, -, ht⟩ |
      ⟨state, summary', disk, hprepare, hpersist, ht⟩
  · exact absurd (congrArg Prod.fst (ht.symm.trans h)) nofun
  · exact absurd (congrArg Prod.fst (ht.symm.trans h)) nofun
  · rw [ht] at h
    obtain rfl := Except.ok.inj (congrArg Prod.fst h)
    obtain rfl : ⟨some state, disk⟩ = session' := congrArg Prod.snd h
    exact ⟨state, hprepare, hpersist, rfl⟩

theorem exists_prepare_of_train {engine : Engine α M} {now : Time.Instant} {data : Option (List α)}
    {contamination : α} {session session' : Session α M} {summary : TrainingSummary α}
    (h : engine.train now data contamination session = (.ok summary, session')) :
    ∃ state, engine.prepare session.disk.tree now data contamination = .ok (state, summary) ∧
      session'.published = some state := by
  obtain ⟨state, hprepare, -, hpublished⟩ := exists_persist_of_train h
  exact ⟨state, hprepare, hpublished⟩

/-- The training comes to a summary. -/
def Trains (engine : Engine α M) (now : Time.Instant) (data : Option (List α)) (contamination : α)
    (session : Session α M) : Prop :=
  ∃ summary session', engine.train now data contamination session = (.ok summary, session')

/-- The training prepares a state that cannot be stored. -/
def FailsToStore (engine : Engine α M) (now : Time.Instant) (data : Option (List α))
    (contamination : α) (session : Session α M) : Prop :=
  ∃ state summary failure disk,
    engine.prepare session.disk.tree now data contamination = .ok (state, summary) ∧
      (engine.persist state).run session.disk = (.error failure, disk)

/-- The training is refused before anything is stored. -/
def Refuses (engine : Engine α M) (now : Time.Instant) (data : Option (List α)) (contamination : α)
    (session : Session α M) (failure : Failure α) : Prop :=
  engine.train now data contamination session = (.error failure, session) ∧
    ¬engine.FailsToStore now data contamination session

section Refusals

variable {engine : Engine α M} {now : Time.Instant} {data : Option (List α)} {contamination : α}
  {session : Session α M}

/-- A training that has prepared a state is not refused any more. -/
theorem trains_or_failsToStore_iff_prepare :
    engine.Trains now data contamination session ∨
        engine.FailsToStore now data contamination session ↔
      ∃ built, engine.prepare session.disk.tree now data contamination = .ok built := by
  rcases engine.train_cases now data contamination session with
    ⟨failure, hprepare, ht⟩ | ⟨state, summary, failure, disk, hprepare, hpersist, -⟩ |
      ⟨state, summary, disk, hprepare, -, ht⟩
  · constructor
    · rintro (⟨summary, session', hok⟩ | ⟨state, summary, _, _, hok, -⟩)
      · exact absurd (congrArg Prod.fst (ht.symm.trans hok)) nofun
      · exact ⟨_, hok⟩
    · rintro ⟨built, hok⟩
      exact absurd (hprepare.symm.trans hok) nofun
  · exact ⟨fun _ ↦ ⟨_, hprepare⟩,
      fun _ ↦ .inr ⟨state, summary, failure, disk, hprepare, hpersist⟩⟩
  · exact ⟨fun _ ↦ ⟨_, hprepare⟩, fun _ ↦ .inl ⟨summary, _, ht⟩⟩

theorem refuses_iff {failure : Failure α} : engine.Refuses now data contamination session failure ↔
    engine.prepare session.disk.tree now data contamination = .error failure := by
  rcases hprepare : engine.prepare session.disk.tree now data contamination with failure' | built
  · have ht : engine.train now data contamination session = (.error failure', session) := by
      rw [train, hprepare]
    have hstored : ¬engine.FailsToStore now data contamination session := by
      rintro ⟨_, _, _, _, hok, -⟩
      exact absurd (hprepare.symm.trans hok) nofun
    rw [Refuses, ht]
    refine ⟨fun h ↦ congrArg _ (Except.error.inj (congrArg Prod.fst h.1)), fun h ↦ ⟨?_, hstored⟩⟩
    rw [Except.error.inj h]
  · refine ⟨?_, nofun⟩
    rintro ⟨hrefused, hstored⟩
    rcases trains_or_failsToStore_iff_prepare.mpr ⟨built, hprepare⟩ with ⟨summary, _, hok⟩ | hfails
    · exact absurd (congrArg Prod.fst (hrefused.symm.trans hok)) nofun
    · exact absurd hfails hstored

theorem trains_or_failsToStore_iff :
    engine.Trains now data contamination session ∨
        engine.FailsToStore now data contamination session ↔
      ¬∃ failure, engine.Refuses now data contamination session failure := by
  simp only [trains_or_failsToStore_iff_prepare, refuses_iff]
  rcases engine.prepare session.disk.tree now data contamination with failure | built
  · simp
  · simp

end Refusals

/-! ### Restoring -/

/-- All that a restoring can do: fail, find nothing, or publish what it finds. -/
theorem restore_cases (engine : Engine α M) (session : Session α M) :
    (∃ failure disk, engine.stored.run session.disk = (.error failure, disk) ∧
      engine.restore session = (.error failure, { session with disk })) ∨
    (∃ disk, engine.stored.run session.disk = (.ok none, disk) ∧
      engine.restore session = (.ok false, { session with disk })) ∨
    (∃ state disk, engine.stored.run session.disk = (.ok (some state), disk) ∧
      engine.restore session = (.ok true, ⟨some state, disk⟩)) := by
  rw [restore]
  rcases hs : engine.stored.run session.disk with ⟨failure | state?, disk⟩
  · exact .inl ⟨failure, disk, rfl, rfl⟩
  · rcases state? with _ | state
    · exact .inr (.inl ⟨disk, rfl, rfl⟩)
    · exact .inr (.inr ⟨state, disk, rfl, rfl⟩)

/-- A state is found only where both files were read and belong together. -/
theorem exists_of_stored_eq_ok {engine : Engine α M} {disk disk' : Files.Disk}
    {state : TrainedState α M} (h : engine.stored.run disk = (.ok (some state), disk')) :
    ∃ store blob statistics, engine.store = some store ∧
      (store.load.run disk).1 = .ok (some (blob, statistics)) ∧
      coherent store blob statistics = .ok state := by
  rw [stored] at h
  rcases hstore : engine.store with _ | store
  · rw [hstore] at h
    exact absurd (congrArg Prod.fst h) nofun
  rw [hstore] at h
  obtain ⟨found?, between, hload, h⟩ := Files.exists_of_run_bind_eq_ok h
  rcases found? with _ | ⟨blob, statistics⟩
  · exact absurd (congrArg Prod.fst h) nofun
  obtain ⟨state', last, hstate, hlast⟩ := Files.exists_of_run_bind_eq_ok h
  have hstate : coherent store blob statistics = .ok state' := congrArg Prod.fst hstate
  have hlast : state' = state :=
    Option.some.inj (Except.ok.inj (congrArg Prod.fst hlast))
  exact ⟨store, blob, statistics, rfl, congrArg Prod.fst hload, hlast ▸ hstate⟩

/-- A restoring that found a state publishes it. -/
theorem exists_stored_of_restore {engine : Engine α M} {session : Session α M}
    (h : (engine.restore session).1 = .ok true) :
    ∃ store blob statistics state, engine.store = some store ∧
      (store.load.run session.disk).1 = .ok (some (blob, statistics)) ∧
      coherent store blob statistics = .ok state ∧
      (engine.restore session).2.published = some state := by
  rcases engine.restore_cases session with
    ⟨failure, disk, -, hr⟩ | ⟨disk, -, hr⟩ | ⟨state, disk, hs, hr⟩
  · rw [hr] at h
    cases h
  · rw [hr] at h
    cases h
  · obtain ⟨store, blob, statistics, hstore, hload, hstate⟩ := exists_of_stored_eq_ok hs
    exact ⟨store, blob, statistics, state, hstore, hload, hstate, by rw [hr]⟩

/-! ### One call -/

/-- A call that succeeds publishes the state that it builds. -/
theorem exists_builds_of_isSuccess (engine : Engine α M) (call : Call α) (session : Session α M)
    (h : (engine.perform call session).1.isSuccess = true) :
    ∃ state, engine.Builds ⟨session.disk, call, (engine.perform call session).1⟩ state ∧
      (engine.perform call session).2.published = some state := by
  rcases call with ⟨now, data, contamination⟩ | _ | series | sequences | _
  · obtain ⟨summary, hok⟩ := Answer.isSuccess_trained_iff.mp h
    have hok : (engine.train now data contamination session).1 = .ok summary := hok
    obtain ⟨state, hprepare, hpublished⟩ := exists_prepare_of_train (Prod.ext hok rfl)
    obtain ⟨matrix, source, hm, hf, hs⟩ := exists_of_prepare_eq_ok hprepare
    refine ⟨state, ?_, hpublished⟩
    show Builds engine ⟨_, _, .trained (engine.train now data contamination session).1⟩ state
    rw [hok]
    exact .trained hm hf hs
  · have hok : (engine.restore session).1 = .ok true := Answer.isSuccess_restored_iff.mp h
    obtain ⟨store, blob, statistics, state, hstore, hload, hstate, hpublished⟩ :=
      exists_stored_of_restore hok
    refine ⟨state, ?_, hpublished⟩
    show Builds engine ⟨_, _, .restored (engine.restore session).1⟩ state
    rw [hok]
    exact .restored hstore hload hstate
  -- A query builds nothing, so that it does not count as a success.
  · exact absurd h nofun
  · exact absurd h nofun
  · exact absurd h nofun

/-- A call that does not succeed publishes nothing. -/
theorem published_perform_of_not_isSuccess (engine : Engine α M) (call : Call α)
    (session : Session α M) (h : (engine.perform call session).1.isSuccess = false) :
    (engine.perform call session).2.published = session.published := by
  rcases call with ⟨now, data, contamination⟩ | _ | series | sequences | _
  · show (engine.train now data contamination session).2.published = session.published
    have h : (Answer.trained (engine.train now data contamination session).1).isSuccess = false := h
    rcases engine.train_cases now data contamination session with
      ⟨failure, -, ht⟩ | ⟨_, _, failure, disk, -, -, ht⟩ | ⟨state, summary, disk, -, -, ht⟩
    · rw [ht]
    -- A state that could not be stored is given up, though the disk may have changed.
    · rw [ht]
    · rw [ht] at h
      exact absurd h nofun
  · show (engine.restore session).2.published = session.published
    have h : (Answer.restored (engine.restore session).1).isSuccess = false := h
    rcases engine.restore_cases session with
      ⟨failure, disk, -, hr⟩ | ⟨disk, -, hr⟩ | ⟨state, disk, -, hr⟩
    · rw [hr]
    · rw [hr]
    · rw [hr] at h
      exact absurd h nofun
  · rfl
  · rfl
  · rfl

end Engine

end OutlierScoring
