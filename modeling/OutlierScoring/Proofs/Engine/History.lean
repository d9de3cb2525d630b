import OutlierScoring.Proofs.Engine.Calls

/-!
# Histories of an engine

An engine lives through calls, one after the other, and between two calls other programs may do to
the disk whatever they like. The published state at the end is the one that the last successful call
has built (`last_success_wins`), and a call that did not succeed could as well not have been
made, as far as the engine is concerned.

Failed calls may leave folders on the disk and so have a say in what later trainings read. Two
histories are therefore compared call by call only as long as the calls are queries or find the same
disk (`Event.IsBlind`).
-/

namespace OutlierScoring

/-- A call, and what happened to the disk since the call before. -/
structure Event (α : Type) where
  /-- What other programs, and the device, did to the disk. -/
  meanwhile : Files.Disk → Files.Disk
  call : Call α

/-- The call does not depend on the disk that earlier calls left. -/
def Event.IsBlind {α : Type} (event : Event α) : Prop :=
  event.call.isQuery = true ∨ ∀ disk disk', event.meanwhile disk = event.meanwhile disk'

/-- The last of some calls that succeeded. -/
def lastSuccess? {α : Type} : List (Record α) → Option (Record α)
  | [] => none
  | record :: records =>
    (lastSuccess? records).or (if record.answer.isSuccess then some record else none)

namespace Engine

variable {α M : Type} [Scalar α] [OutlierModel M α] [Json.Form M] [Numeral α]

/-- Makes the call of an event. -/
def step (engine : Engine α M) (event : Event α) (session : Session α M) :
    Record α × Session α M :=
  let disk := event.meanwhile session.disk
  let (answer, session) := engine.perform event.call { session with disk }
  (⟨disk, event.call, answer⟩, session)

/-- Makes the calls of some events, and writes down how they went. -/
def run (engine : Engine α M) : List (Event α) → Session α M → List (Record α) × Session α M
  | [], session => ([], session)
  | event :: events, session =>
    let (record, session) := engine.step event session
    let (records, session) := engine.run events session
    (record :: records, session)

theorem run_cons (engine : Engine α M) (event : Event α) (events : List (Event α))
    (session : Session α M) :
    engine.run (event :: events) session =
      ((engine.step event session).1 :: (engine.run events (engine.step event session).2).1,
        (engine.run events (engine.step event session).2).2) := rfl

/-! ### The state that is built -/

/-- A call builds at most one state. -/
theorem Builds.unique {engine : Engine α M} {record : Record α} {state other : TrainedState α M}
    (h : engine.Builds record state) (h' : engine.Builds record other) : other = state := by
  -- Each stage is a function of the ones before, so that both states come out of the same stages.
  cases h with
  | trained hm hf hs =>
    cases h' with
    | trained hm' hf' hs' =>
      rw [hm] at hm'
      obtain ⟨rfl, rfl⟩ := Prod.mk.injEq .. ▸ Except.ok.inj hm'
      rw [hf] at hf'
      exact (Except.ok.inj hf').symm
  | restored hstore hload hstate =>
    cases h' with
    | restored hstore' hload' hstate' =>
      rw [hstore] at hstore'
      obtain rfl := Option.some.inj hstore'
      rw [hload] at hload'
      obtain ⟨rfl, rfl⟩ := Prod.mk.injEq .. ▸ Option.some.inj (Except.ok.inj hload')
      rw [hstate] at hstate'
      exact (Except.ok.inj hstate').symm

/-- What the records of some calls say about the published state: it is the one that the last
success has built, and without a success it is the one from before. -/
def Accounts (engine : Engine α M) (records : List (Record α))
    (before after : Option (TrainedState α M)) : Prop :=
  match lastSuccess? records with
  | none => after = before
  | some record => ∃ state, after = some state ∧ ∀ other, engine.Builds record other ↔ other = state

theorem accounts_step (engine : Engine α M) (event : Event α) (session : Session α M) :
    engine.Accounts [(engine.step event session).1] session.published
      (engine.step event session).2.published := by
  let found : Session α M := { session with disk := event.meanwhile session.disk }
  show engine.Accounts [⟨found.disk, event.call, (engine.perform event.call found).1⟩]
    found.published (engine.perform event.call found).2.published
  rcases h : (engine.perform event.call found).1.isSuccess
  · have hnone : lastSuccess? [⟨found.disk, event.call, (engine.perform event.call found).1⟩] =
        none := by
      simp only [lastSuccess?, h, Option.or]
      rfl
    rw [Accounts, hnone]
    exact engine.published_perform_of_not_isSuccess event.call found h
  · have hsome : lastSuccess? [⟨found.disk, event.call, (engine.perform event.call found).1⟩] =
        some ⟨found.disk, event.call, (engine.perform event.call found).1⟩ := by
      simp only [lastSuccess?, h, Option.or]
      rfl
    rw [Accounts, hsome]
    obtain ⟨state, hbuilds, hpublished⟩ := engine.exists_builds_of_isSuccess event.call found h
    exact ⟨state, hpublished, fun other ↦ ⟨hbuilds.unique, fun h ↦ h ▸ hbuilds⟩⟩

omit [Scalar α] [OutlierModel M α] [Json.Form M] [Numeral α] in
/-- Calls that come first matter only where no later call succeeds. -/
theorem lastSuccess?_cons (record : Record α) (records : List (Record α)) :
    lastSuccess? (record :: records) = (lastSuccess? records).or (lastSuccess? [record]) := by
  simp [lastSuccess?]

theorem Accounts.cons {engine : Engine α M} {record : Record α} {records : List (Record α)}
    {before between after : Option (TrainedState α M)} (h : engine.Accounts [record] before between)
    (hs : engine.Accounts records between after) :
    engine.Accounts (record :: records) before after := by
  rw [Accounts, lastSuccess?_cons]
  rw [Accounts] at hs
  rcases hlast : lastSuccess? records with _ | last <;> rw [hlast] at hs
  · obtain rfl : after = between := hs
    exact h
  · exact hs

/-- The invariant of a history: its records account for the published state. -/
theorem accounts_run (engine : Engine α M) (events : List (Event α)) (session : Session α M) :
    engine.Accounts (engine.run events session).1 session.published
      (engine.run events session).2.published := by
  induction events generalizing session with
  | nil => exact rfl
  | cons event events ih =>
    exact (engine.accounts_step event session).cons (ih (engine.step event session).2)

/-! ### Calls that do not succeed -/

/-- Sessions that publish the same state answer a blind call alike, and publish the same state
afterwards. -/
theorem step_congr_of_isBlind (engine : Engine α M) {event : Event α} (h : event.IsBlind)
    {session session' : Session α M} (hs : session.published = session'.published) :
    (engine.step event session).1.answer = (engine.step event session').1.answer ∧
      (engine.step event session).2.published = (engine.step event session').2.published := by
  obtain ⟨published, disk⟩ := session
  obtain ⟨published', disk'⟩ := session'
  obtain rfl : published = published' := hs
  rcases h with hquery | hdisk
  · obtain ⟨meanwhile, call⟩ := event
    rcases call with _ | _ | series | sequences | _
    · exact absurd hquery nofun
    · exact absurd hquery nofun
    · exact ⟨rfl, rfl⟩
    · exact ⟨rfl, rfl⟩
    · exact ⟨rfl, rfl⟩
  · have : engine.step event ⟨published, disk⟩ = engine.step event ⟨published, disk'⟩ := by
      simp only [step, hdisk disk disk']
    exact ⟨by rw [this], by rw [this]⟩

theorem run_congr_of_isBlind (engine : Engine α M) {events : List (Event α)}
    (h : ∀ event ∈ events, event.IsBlind) {session session' : Session α M}
    (hs : session.published = session'.published) :
    (engine.run events session).1.map (·.answer) = (engine.run events session').1.map (·.answer) ∧
      (engine.run events session).2.published = (engine.run events session').2.published := by
  -- The disks of the two sessions may go apart, so that only the published states are compared.
  induction events generalizing session session' with
  | nil => exact ⟨rfl, hs⟩
  | cons event events ih =>
    obtain ⟨hanswer, hpublished⟩ := engine.step_congr_of_isBlind (h event List.mem_cons_self) hs
    obtain ⟨hanswers, hend⟩ := ih (fun e he ↦ h e (List.mem_cons_of_mem _ he)) hpublished
    rw [run_cons, run_cons, List.map_cons, List.map_cons, hanswer, hanswers]
    exact ⟨rfl, hend⟩

/-- A call that does not succeed leaves the published state as it is. -/
theorem published_step_of_not_isSuccess (engine : Engine α M) (event : Event α)
    (session : Session α M) (h : (engine.step event session).1.answer.isSuccess = false) :
    (engine.step event session).2.published = session.published :=
  engine.published_perform_of_not_isSuccess event.call
    { session with disk := event.meanwhile session.disk } h

/-- A history does not take the published state away. -/
theorem isTrained_run_of_isTrained (engine : Engine α M) (events : List (Event α))
    (session : Session α M) (h : session.isTrained = true) :
    (engine.run events session).2.isTrained = true := by
  have haccounts := engine.accounts_run events session
  rw [Accounts] at haccounts
  rcases hlast : lastSuccess? (engine.run events session).1 with _ | last <;>
    rw [hlast] at haccounts
  · rw [Session.isTrained, haccounts]
    exact h
  · obtain ⟨state, hstate, -⟩ := haccounts
    rw [Session.isTrained, hstate]
    rfl

/-- Last success wins. Through every history of an engine, the published state is exactly the one
that the last successful call has built, and there is none before the first success. A call that
does not succeed publishes nothing and changes no answer of later calls. A trained engine stays
trained. -/
theorem last_success_wins (engine : Engine α M) :
    (∀ events disk,
      match lastSuccess? (engine.run events (.start disk)).1 with
      | none => (engine.run events (.start disk)).2.published = none
      | some record => ∃ state, (engine.run events (.start disk)).2.published = some state ∧
          ∀ other, engine.Builds record other ↔ other = state) ∧
    (∀ event session, (engine.step event session).1.answer.isSuccess = false →
      (engine.step event session).2.published = session.published ∧
      ∀ later : List (Event α), (∀ event ∈ later, event.IsBlind) →
        (engine.run later (engine.step event session).2).1.map (·.answer) =
            (engine.run later session).1.map (·.answer) ∧
          (engine.run later (engine.step event session).2).2.published =
            (engine.run later session).2.published) ∧
    ∀ events session, session.isTrained = true →
      (engine.run events session).2.isTrained = true := by
  refine ⟨fun events disk ↦ engine.accounts_run events (.start disk), fun event session h ↦ ?_,
    engine.isTrained_run_of_isTrained⟩
  have hsame := engine.published_step_of_not_isSuccess event session h
  exact ⟨hsame, fun later hlater ↦ engine.run_congr_of_isBlind hlater hsame⟩

end Engine

end OutlierScoring
