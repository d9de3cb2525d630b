import OutlierScoring.Proofs.Csv.Numeric
import OutlierScoring.Proofs.Dataset
import OutlierScoring.Proofs.Engine.Calls
import OutlierScoring.Proofs.Engine.Training
import OutlierScoring.Proofs.Forest.Persistence
import OutlierScoring.Proofs.Store.Loading
import OutlierScoring.Proofs.Store.Saving
import OutlierScoring.Proofs.Store.Twins

/-!
# Published states and stored states

What an engine for forests has published and what its store holds. A state that the two files hold
is restored if it can be stored, but for the policy of its scaler, which no prediction looks at; a
state that cannot be stored is not restored at all (`restore_start_of_stores`). Of a state that is
fitted only the statistics can be in the way of that (`Engine.isStorable_iff_of_fit`).

`Mirrors` compares a state that was published on one tree with what the files on another tree hold.
A training keeps it (`mirrors_train`), whether it succeeds or fails, and with two clocks.
-/

namespace OutlierScoring

open Files Tree

variable {α : Type} [Scalar α]

/-! ### States in files -/

namespace TrainedState

/-- What is stored of a state beside its statistics. -/
def blob {M : Type} (state : TrainedState α M) : Blob M :=
  ⟨state.model, state.featureNames, state.trainedAt⟩

/-- The two files of the state are read back. -/
def IsStorable (state : TrainedState α (Forest α)) : Prop :=
  state.model.IsStorable ∧ ∀ statistics ∈ state.scaler.statistics, statistics.IsStorable

/-- The state, as it comes from its two files. -/
def reread {M : Type} (state : TrainedState α M) : TrainedState α M :=
  { state with scaler := ⟨.unitScale, state.scaler.statistics⟩ }

end TrainedState

section Fit

variable [RoundedScalar α] [LawfulFunctions α] {σ : Type} {chance : Chance σ α}
  {p : ForestParams α} {engine : Engine α (Forest α)} {matrix : FeatureMatrix α}
  {state : TrainedState α (Forest α)} (hdetector : engine.detector = p.detector chance)
  (hdistinct : chance.draws.SamplesDistinct) {now : Time.Instant} {contamination : α}
  (h : engine.fit now matrix contamination = .ok state)
  (hheight : matrix.values.height < UInt64.size) (hcount : p.estimators < UInt64.size)

include hdetector hdistinct h hheight hcount

/-- The forest of a fitted state can be stored. Counts of rows, columns and trees are machine
words. -/
theorem Engine.isStorable_model_of_fit (hwidth : matrix.values.width < UInt64.size) :
    state.model.IsStorable := by
  obtain ⟨scaled, hmodel, hscaledHeight, hscaledWidth⟩ := exists_model_of_fit hdetector h
  exact ForestParams.isStorable_of_fit hdistinct hmodel (hscaledHeight.trans_lt hheight)
    (hscaledWidth.trans_lt hwidth) hcount

/-- Only the statistics can keep a fitted state from being stored, if they are not finite. -/
theorem Engine.isStorable_iff_of_fit (hwidth : matrix.values.width < UInt64.size / 2) :
    state.IsStorable ↔
      ((Scaler.new engine.zeroVariance).fitTransform matrix.values matrix.names).2.statistics.all
        (fun statistics ↦ (statistics.mean ++ statistics.scale).all Scalar.isFinite) = true := by
  have hmodel := isStorable_model_of_fit hdetector hdistinct h hheight hcount
    (hwidth.trans_le (Nat.div_le_self ..))
  obtain ⟨statistics, hfit⟩ := exists_isFitTo_of_fit hdetector h
  obtain ⟨-, -, -, _, hlearned, -⟩ := exists_of_fit_eq_ok h
  have hscaler : ((Scaler.new engine.zeroVariance).fitTransform matrix.values matrix.names).2 =
    state.scaler := congrArg Prod.snd hlearned
  rw [hscaler, hfit.statistics_eq, Option.all_some, Array.all_eq_true_iff_forall_mem,
    TrainedState.IsStorable, hfit.statistics_eq]
  constructor
  · rintro ⟨-, hstorable⟩ x hx
    obtain ⟨hmean, hscale⟩ := hstorable statistics rfl
    exact (Array.mem_append.mp hx).elim (hmean.2 x) (hscale.2 x)
  · intro hfinite
    refine ⟨hmodel, fun other hother ↦ ?_⟩
    obtain rfl := Option.some.inj hother
    exact ⟨⟨hfit.size_mean.trans_lt hwidth, fun x hx ↦ hfinite x (Array.mem_append_left _ hx)⟩,
      ⟨hfit.size_scale.trans_lt hwidth, fun x hx ↦ hfinite x (Array.mem_append_right _ hx)⟩⟩

end Fit

variable [Numeral α]

namespace Store

/-- The two files hold the state, which is complete. -/
structure Stores (store : Store) (tree : Tree) (state : TrainedState α (Forest α)) : Prop where
  isCoherent : state.IsCoherent
  isValid : state.trainedAt.IsValid
  holds : ∀ statistics ∈ state.scaler.statistics, store.Holds tree state.blob statistics

/-- One of the two files is missing. -/
def IsIncomplete (store : Store) (tree : Tree) : Prop :=
  tree.contentAt? store.model.place = none ∨ tree.contentAt? store.scaler.place = none

end Store

namespace Engine

variable {engine : Engine α (Forest α)} {store : Store} {tree twin : Tree}
  {state : TrainedState α (Forest α)}

/-! ### Restoring -/

/-- A fresh engine has nothing but what it loads, and publishes that if its parts agree. -/
theorem restore_start (hstore : engine.store = some store)
    {outcome : Outcome α (Option (Blob (Forest α) × Statistics α))}
    (hload : store.load.run (.ofTree tree) = (outcome, .ofTree tree)) :
    engine.restore (.start (.ofTree tree)) =
      let restored := outcome >>= Option.mapM fun parts ↦ coherent store parts.1 parts.2
      (restored.map (·.isSome), ⟨restored.toOption.join, .ofTree tree⟩) := by
  have hdisk : (Session.start (.ofTree tree) : Session α (Forest α)).disk = .ofTree tree := rfl
  rw [restore, stored, hdisk, hstore, run_bind, hload]
  rcases outcome with failure | _ | ⟨blob, statistics⟩
  · rfl
  · rfl
  · simp only
    rw [run_bind, Store.run_ofOutcome]
    simp only [bind, Except.bind, Option.mapM]
    rcases coherent store blob statistics with failure | state
    · rfl
    · rfl

omit [Scalar α] [Numeral α] in
theorem isFile_eq_false {path : Path} (h : tree.contentAt? path.place = none) :
    tree.isFile path = false := by
  rw [Bool.eq_false_iff, ne_eq, isFile_iff_exists_read]
  rintro ⟨content, hread⟩
  rw [contentAt?_eq_some_iff.mpr (Tree.read_eq_ok hread).2] at h
  exact absurd h nofun

/-- Where one of the files is missing there is nothing to restore. -/
theorem restore_start_of_isIncomplete (hstore : engine.store = some store)
    (h : store.IsIncomplete tree) :
    (engine.restore (.start (.ofTree tree))).2 = .start (.ofTree tree) := by
  have hpresent : store.isPresent tree = false := by
    rw [Store.isPresent, Bool.and_eq_false_iff]
    exact h.imp isFile_eq_false isFile_eq_false
  have hload : (store.load : Store.Step α (Option (Blob (Forest α) × Statistics α))).run
      (.ofTree tree) = (.ok none, .ofTree tree) := by
    show (if store.isPresent tree then _ else _ : Store.Step α _).run (.ofTree tree) = _
    rw [if_neg (by simp [hpresent])]
    rfl
  rw [restore_start hstore hload]
  rfl

variable [LawfulNumeral α]

/-- A state in the two files that can be stored is restored if its parts agree. -/
theorem restore_start_of_holds (hstore : engine.store = some store)
    (hvalid : state.trainedAt.IsValid) {statistics : Statistics α}
    (hholds : store.Holds tree state.blob statistics)
    (hstorable : state.model.IsStorable ∧ statistics.IsStorable) :
    engine.restore (.start (.ofTree tree)) =
      ((coherent store state.blob statistics).map fun _ ↦ true,
        ⟨(coherent store state.blob statistics).toOption, .ofTree tree⟩) := by
  rw [restore_start hstore ((hholds.load hvalid).1 hstorable)]
  simp only [bind, Except.bind, Option.mapM]
  rcases coherent store state.blob statistics with failure | state
  · rfl
  · rfl

/-- A state in the two files is restored exactly if it can be stored. -/
theorem restore_start_of_stores (hstore : engine.store = some store) (h : store.Stores tree state) :
    (state.IsStorable →
      (engine.restore (.start (.ofTree tree))).2 = ⟨some state.reread, .ofTree tree⟩) ∧
    (¬state.IsStorable → (engine.restore (.start (.ofTree tree))).2 = .start (.ofTree tree)) := by
  obtain ⟨statistics, hstatistics, hsize, hnames⟩ := h.isCoherent
  have hholds := h.holds statistics hstatistics
  have hstorable : state.IsStorable ↔ state.model.IsStorable ∧ statistics.IsStorable := by
    rw [TrainedState.IsStorable, hstatistics]
    simp
  have hcoherent : coherent store state.blob statistics = .ok state.reread := by
    -- What is stored has been trained, so that its parts agree and are not refused.
    have hagree : ¬(statistics.mean.size ≠ state.model.features ∨
        state.featureNames.length ≠ state.model.features) := by
      simp [hsize, hnames]
    rw [coherent, TrainedState.reread, hstatistics]
    exact if_neg hagree
  rw [hstorable]
  constructor
  · intro hok
    rw [restore_start_of_holds hstore h.isValid hholds hok, hcoherent]
    rfl
  · intro hn
    rw [restore_start hstore ((hholds.load h.isValid).2 hn)]
    rfl

end Engine

/-! ### Trainings with two clocks -/

/-- Beside a published state and the tree of its engine, a tree on which the same trainings were
made with another clock: either nothing was stored so far, or both trees hold the state, each with a
time of its own. -/
inductive Mirrors (store : Store) : Option (TrainedState α (Forest α)) → Tree → Tree → Prop
  | nothing {tree twin : Tree} :
      SameBut store.HoldsModel tree twin →
      tree.contentAt? store.model.place = twin.contentAt? store.model.place →
      store.IsIncomplete tree →
      Mirrors store none tree twin
  | trained {tree twin : Tree} {state : TrainedState α (Forest α)} {now : Time.Instant} :
      SameBut store.HoldsModel tree twin →
      store.Stores tree state →
      store.Stores twin (state.dated now) →
      Mirrors store (some state) tree twin

/-- The engine grows forests, falls back on a table file and stores its states in the two files of
a store, which are different. -/
structure Engine.IsStandard (engine : Engine α (Forest α)) (store : Store) : Prop where
  detector : ∃ (σ : Type) (chance : Chance σ α) (p : ForestParams α),
    engine.detector = p.detector chance
  fallback : ∃ path, engine.fallback = .ofFile path
  store_eq : engine.store = some store
  places_ne : store.scaler.place ≠ store.model.place

section Mirrors

variable {store : Store} {tree twin after after' : Tree}
  {published : Option (TrainedState α (Forest α))} {state : TrainedState α (Forest α)}

theorem Store.Stores.of_undone (h : store.Stores tree state)
    (hundone : Undone store.folders [store.modelTemp, store.scalerTemp] tree after) :
    store.Stores after state where
  isCoherent := h.isCoherent
  isValid := h.isValid
  holds statistics hstatistics :=
    ⟨hundone.read_eq_ok store.not_isNamed_of_mem_temps store.isSplit_model
        (h.holds statistics hstatistics).read_model,
      hundone.read_eq_ok store.not_isNamed_of_mem_temps store.isSplit_scaler
        (h.holds statistics hstatistics).read_scaler⟩

/-- The two files hold what was saved. -/
theorem Store.holds_of_run_save {M : Type} [Json.Form M] {blob : Blob M}
    {statistics : Statistics α} (hplaces : store.scaler.place ≠ store.model.place)
    {disk disk' : Disk} (h : (store.save blob statistics).run disk = (.ok (), disk')) :
    store.Holds disk'.tree blob statistics := by
  have hreplaced := (ends_replace store _ _ disk.tree).of_run_eq_ok h
  have hscaler := hreplaced.read_scaler
  rw [lastWritten, if_neg hplaces] at hscaler
  exact ⟨hreplaced.read_model, hscaler⟩

/-- A save that succeeded has stored the state. -/
theorem Store.stores_of_run_save (hplaces : store.scaler.place ≠ store.model.place)
    (hcoherent : state.IsCoherent) (hvalid : state.trainedAt.IsValid) {statistics : Statistics α}
    (hstatistics : state.scaler.statistics = some statistics) {disk disk' : Disk}
    (h : (store.save state.blob statistics).run disk = (.ok (), disk')) :
    store.Stores disk'.tree state := by
  refine ⟨hcoherent, hvalid, fun other hother ↦ ?_⟩
  obtain rfl := Option.some.inj (hstatistics.symm.trans hother)
  exact holds_of_run_save hplaces h

theorem Store.undone_of_run_save {M : Type} [Json.Form M] {blob : Blob M}
    {statistics : Statistics α} {disk disk' : Disk} {failure : Failure α}
    (h : (store.save blob statistics).run disk = (.error failure, disk')) :
    Undone store.folders [store.modelTemp, store.scalerTemp] disk.tree disk'.tree :=
  (ends_replace store _ _ disk.tree).of_run_eq_error h

/-- Trainings that fail change nothing about what is stored. -/
theorem Mirrors.of_undone (h : Mirrors store published tree twin)
    (hsame : SameBut store.HoldsModel after after')
    (hundone : Undone store.folders [store.modelTemp, store.scalerTemp] tree after)
    (hundone' : Undone store.folders [store.modelTemp, store.scalerTemp] twin after') :
    Mirrors store published after after' := by
  cases h with
  | nothing _ hcontent hincomplete =>
    have hmodel := hundone.contentAt?_eq store.not_isNamed_of_mem_temps store.isNamed_model
    have hmodel' := hundone'.contentAt?_eq store.not_isNamed_of_mem_temps store.isNamed_model
    have hscaler := hundone.contentAt?_eq store.not_isNamed_of_mem_temps store.isNamed_scaler
    refine .nothing hsame (by rw [hmodel, hmodel', hcontent]) ?_
    rw [Store.IsIncomplete, hmodel, hscaler]
    exact hincomplete
  | trained _ hstores hstores' =>
    exact .trained hsame (hstores.of_undone hundone) (hstores'.of_undone hundone')

/-- The fallback data set is the same on both trees, even where it is read from the file of the
model. -/
theorem Mirrors.load_fallback_eq (h : Mirrors store published tree twin)
    {engine : Engine α (Forest α)} (hengine : engine.IsStandard store) :
    engine.fallback.load tree = engine.fallback.load twin := by
  obtain ⟨path, hpath⟩ := hengine.fallback
  rw [hpath]
  have hnamed (other : Location) (hnamed : other.IsNamed) (hholds : store.HoldsModel other) :
      other = store.model.place := hholds.eq_place hnamed
  cases h with
  | nothing hsame hcontent _ =>
    refine Dataset.load_ofFile_congr hsame hnamed (.inl ?_) path
    rcases hsame store.model.place with heq | ⟨-, content, content', hfile, hfile'⟩
    · exact heq
    · rw [contentAt?_eq_some_iff.mpr hfile, contentAt?_eq_some_iff.mpr hfile'] at hcontent
      rw [hfile, hfile', Option.some.inj hcontent]
  | trained hsame hstores hstores' =>
    -- If the table is read from the place of the model, both trees have a stored model there.
    obtain ⟨statistics, hstatistics, -⟩ := hstores.isCoherent
    exact Dataset.load_ofFile_congr hsame hnamed (.inr ⟨_, _,
      (Tree.read_eq_ok (hstores.holds statistics hstatistics).read_model).2,
      (Tree.read_eq_ok (hstores'.holds statistics hstatistics).read_model).2⟩) path

variable {engine : Engine α (Forest α)}

theorem Engine.persist_eq (hstore : engine.store = some store) {statistics : Statistics α}
    (h : state.scaler.statistics = some statistics) :
    engine.persist state = store.save state.blob statistics := by
  rw [persist, hstore, h]
  rfl

/-- A training that has prepared a state succeeds if contents can be stored on its disk. -/
theorem Engine.exists_train_of_prepare {σ : Type} {chance : Chance σ α} {p : ForestParams α}
    (hdetector : engine.detector = p.detector chance) (hstore : engine.store = some store)
    {now : Time.Instant} {data : Option (List α)} {contamination : α}
    (session : Session α (Forest α))
    (hreplace : ∀ model scaler : ByteArray, ∃ disk,
      (store.replace model scaler : Store.Step α Unit).run session.disk = (.ok (), disk))
    {summary : TrainingSummary α}
    (h : engine.prepare session.disk.tree now data contamination = .ok (state, summary)) :
    ∃ disk, engine.train now data contamination session = (.ok summary, ⟨some state, disk⟩) := by
  obtain ⟨_, _, _, hfit, -⟩ := exists_of_prepare_eq_ok h
  obtain ⟨statistics, hfitTo⟩ := exists_isFitTo_of_fit hdetector hfit
  obtain ⟨disk, hpersist⟩ : ∃ disk, (engine.persist state).run session.disk = (.ok (), disk) := by
    rw [persist_eq hstore hfitTo.statistics_eq]
    exact hreplace _ _
  refine ⟨disk, Eq.trans (train_eq_of_prepare h) ?_⟩
  rw [hpersist]

variable (hengine : engine.IsStandard store)

include hengine

theorem Engine.IsStandard.isCoherent_of_prepare {now : Time.Instant} {data : Option (List α)}
    {contamination : α} {summary : TrainingSummary α}
    (h : engine.prepare tree now data contamination = .ok (state, summary)) :
    state.IsCoherent ∧ state.trainedAt = now := by
  obtain ⟨matrix, source, hmatrix, hfit, -⟩ := Engine.exists_of_prepare_eq_ok h
  have hnames : matrix.names.length = matrix.values.width := by
    rcases Engine.exists_of_trainingMatrix_eq_ok hmatrix with ⟨series, -, -, rfl⟩ | hloaded
    · rfl
    · obtain ⟨path, hpath⟩ := hengine.fallback
      rw [hpath] at hloaded
      exact Dataset.length_names_of_load hloaded
  obtain ⟨σ, chance, p, hdetector⟩ := hengine.detector
  exact ⟨Engine.isCoherent_of_fit hdetector hnames hfit, Engine.trainedAt_of_fit hfit⟩

/-- A training with two clocks comes to the same but for the time, and what it publishes and stores
mirrors each other again. -/
theorem mirrors_train (h : Mirrors store published tree twin)
    (other : Option (TrainedState α (Forest α))) {now now' : Time.Instant} (hnow : now.IsValid)
    (hnow' : now'.IsValid) (data : Option (List α)) (contamination : α) (refusals : List Bool) :
    let result := engine.train now data contamination ⟨published, ⟨tree, refusals⟩⟩
    let result' := engine.train now' data contamination ⟨other, ⟨twin, refusals⟩⟩
    result.1.map (·.dated default) = result'.1.map (·.dated default) ∧
      Mirrors store result.2.published result.2.disk.tree result'.2.disk.tree := by
  have hprepare' := Engine.prepare_dated (h.load_fallback_eq hengine) now now' data contamination
  rcases hprepare : engine.prepare tree now data contamination with failure | ⟨state, summary⟩
  · rw [hprepare] at hprepare'
    simp only [Engine.train, hprepare, hprepare', Except.map]
    exact ⟨trivial, h⟩
  rw [hprepare] at hprepare'
  obtain ⟨hcoherent, htime⟩ := hengine.isCoherent_of_prepare hprepare
  obtain ⟨statistics, hstatistics, -⟩ := id hcoherent
  have hpersist := Engine.persist_eq hengine.store_eq hstatistics
  have hpersist' : engine.persist (state.dated now') =
      store.save (state.dated now').blob statistics :=
    Engine.persist_eq hengine.store_eq hstatistics
  have hsame : SameBut store.HoldsModel tree twin := by
    cases h <;> assumption
  simp only [Engine.train, hprepare, hprepare', Except.map, hpersist, hpersist']
  -- The two states differ in the text of the model only, and that has no say in how a save ends.
  rcases (Store.twins_save hengine.places_ne state.blob (state.dated now').blob statistics).cases
      hsame refusals with
    ⟨⟨⟩, after, after', rest, -, hafter, hrun, hrun'⟩ |
    ⟨failure, after, after', rest, hafter, hrun, hrun'⟩
  · rw [hrun, hrun']
    have hstores :=
      Store.stores_of_run_save hengine.places_ne hcoherent (htime ▸ hnow) hstatistics hrun
    have hcoherent' : (state.dated now').IsCoherent := hcoherent
    have hstores' := Store.stores_of_run_save hengine.places_ne hcoherent' hnow' hstatistics hrun'
    exact ⟨rfl, .trained hafter hstores hstores'⟩
  · rw [hrun, hrun']
    have hundone := Store.undone_of_run_save hrun
    have hundone' := Store.undone_of_run_save hrun'
    exact ⟨rfl, h.of_undone hafter hundone hundone'⟩

end Mirrors

end OutlierScoring
