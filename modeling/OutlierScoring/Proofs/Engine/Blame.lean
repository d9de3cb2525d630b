import OutlierScoring.Proofs.Csv.Numeric
import OutlierScoring.Proofs.Engine.Batches
import OutlierScoring.Proofs.Engine.Training
import OutlierScoring.Proofs.Settings.Checks
import OutlierScoring.Proofs.Store.Faults

/-!
# Whose fault a failure is

`Failure.isClient` goes by the kind of a failure alone. For predictions this tells what it should:
all that they can be refused for is the caller's (`Session.failsOnly_predict`). A training on the
fallback data set has nothing from the caller but a contamination, and yet it can be refused for a
failure of the caller's kind. `FeatureMatrix.Blames` says exactly when: if a column of the table
does not vary and is to be refused for that, or if numbers of the table are finite and no longer so
when they are standardized (`Engine.train_blames_iff`).
-/

namespace OutlierScoring

variable {α : Type} [Scalar α]

/-! ### Predictions -/

/-- The failure is the caller's, unless there is none because the operation broke off. -/
def Failure.IsCallers (failure : Failure α) : Prop :=
  failure.isClient = true ∨ ∃ breach, failure = .breach breach

omit [Scalar α] in
theorem Failure.isCallers_inSequence {cause : Failure α} (h : cause.IsCallers) (i : Nat) :
    (TrainedState.inSequence i cause).IsCallers := by
  rcases h with hclient | ⟨breach, rfl⟩
  · left
    rw [TrainedState.inSequence_of_ne]
    · exact hclient
    · rintro breach rfl
      cases hclient
  · exact .inr ⟨breach, rfl⟩

namespace Session

variable (session : Session α (Forest α))

theorem failsOnly_predict (series : List α) :
    (session.predict series).FailsOnly Failure.IsCallers := by
  rw [predict]
  rcases session.published with _ | state
  · exact Outcome.failsOnly_error (.inl rfl)
  · intro failure hfail
    cases state.failsOnly_predict series failure hfail with
    | untrained _ => exact .inl rfl
    | emptySeries => exact .inl rfl
    | nonFiniteValue _ _ => exact .inl rfl
    | featureCountMismatch _ _ => exact .inl rfl
    | breach breach => exact .inr ⟨breach, rfl⟩

theorem failsOnly_predictBatch (sequences : List (List α)) :
    (session.predictBatch sequences).FailsOnly Failure.IsCallers := by
  intro failure hfail
  rcases hpublished : session.published with _ | state
  · simp only [predictBatch, hpublished] at hfail
    exact Except.error.inj hfail ▸ .inl rfl
  · simp only [predictBatch, hpublished] at hfail
    obtain ⟨i, hi, cause, hcause, -, rfl⟩ := TrainedState.predictBatch_eq_error hfail
    refine Failure.isCallers_inSequence (session.failsOnly_predict sequences[i] cause ?_) i
    rw [predict, hpublished]
    exact hcause

end Session

/-! ### Trainings on a table -/

/-- The failures of the caller's kind that a matrix gives rise to by itself. -/
inductive FeatureMatrix.Blames (table : FeatureMatrix α) (policy : ZeroVariance) :
    Failure α → Prop
  /-- The first column that does not vary is refused. -/
  | flatColumn (j : Fin table.values.width) : policy = .reject → table.values.IsFlat j →
      (∀ k < j, ¬table.values.IsFlat k) →
      Blames table policy (.degenerateFeature j (Scaler.columnName table.names j))
  /-- Standardized numbers are not finite, the first of them in the given cell. -/
  | overflow {scaled : Matrix α} {row column : Nat} :
      ((Scaler.new policy).fitTransform table.values table.names).1 = .ok scaled →
      scaled.firstNonFinite? = some (row, column) →
      Blames table policy (.nonFiniteValue row column)

theorem FeatureMatrix.Blames.isClient {table : FeatureMatrix α} {policy : ZeroVariance}
    {failure : Failure α} (h : table.Blames policy failure) : failure.isClient = true := by
  cases h with
  | flatColumn => rfl
  | overflow => rfl

namespace FeatureMatrix

variable {table : FeatureMatrix α} {policy : ZeroVariance} {failure : Failure α}

/-- Where the scaler cannot learn from the rows, that is all there is to blame. -/
theorem blames_iff_of_learn_eq_error (hheight : 0 < table.values.height) {cause : Failure α}
    (h : Scaler.learn policy table.values table.names = .error cause) :
    table.Blames policy failure ↔ cause = failure := by
  obtain ⟨j, hpolicy, hflat, hfirst, rfl⟩ := (Scaler.learn_eq_error_iff hheight).mp h
  constructor
  · intro hblames
    cases hblames with
    | flatColumn k _ hflat' hfirst' =>
      obtain rfl : j = k := le_antisymm (not_lt.mp fun hlt ↦ hfirst k hlt hflat')
        (not_lt.mp fun hlt ↦ hfirst' j hlt hflat)
      rfl
    | overflow hscaled _ =>
      rw [Scaler.fitTransform, Scaler.new, h] at hscaled
      cases hscaled
  · rintro rfl
    exact .flatColumn j hpolicy hflat hfirst

/-- Where it can, there is nothing to blame but the numbers that it makes of the rows. -/
theorem blames_iff_of_learn_eq_ok (hheight : 0 < table.values.height) {statistics : Statistics α}
    (h : Scaler.learn policy table.values table.names = .ok statistics) {scaled : Matrix α}
    (hscaled : ((Scaler.new policy).fitTransform table.values table.names).1 = .ok scaled) :
    table.Blames policy failure ↔ scaled.ensureFinite = .error failure := by
  rw [Matrix.ensureFinite]
  constructor
  · intro hblames
    cases hblames with
    | flatColumn j hpolicy hflat hfirst =>
      have hrefused : Scaler.learn policy table.values table.names =
          .error (.degenerateFeature j (Scaler.columnName table.names j)) :=
        (Scaler.learn_eq_error_iff hheight).mpr ⟨j, hpolicy, hflat, hfirst, rfl⟩
      cases h.symm.trans hrefused
    | overflow hscaled' hcell =>
      obtain rfl := Except.ok.inj (hscaled.symm.trans hscaled')
      rw [hcell]
  · intro hfail
    rcases hcell : scaled.firstNonFinite? with _ | ⟨row, column⟩
    · rw [hcell] at hfail
      cases hfail
    · rw [hcell] at hfail
      obtain rfl := Except.error.inj hfail
      exact .overflow hscaled hcell

end FeatureMatrix

namespace Engine

variable {σ : Type} {chance : Chance σ α} {p : ForestParams α} {engine : Engine α (Forest α)}
  {tree : Files.Tree} {data : Option (List α)} {table : FeatureMatrix α} {source : TrainingSource}

/-- There is no groundwork on finite rows for exactly the reasons that they give by themselves. -/
theorem groundwork_eq_error_iff (hcounts : p.checkCounts = .ok ())
    (hmatrix : engine.trainingMatrix tree data = .ok (table, source))
    (hheight : 0 < table.values.height) (hfinite : table.values.IsFinite) {failure : Failure α} :
    groundwork chance p engine tree data = .error failure ↔
      table.Blames engine.zeroVariance failure := by
  have hensure := Matrix.ensureFinite_eq_ok_iff.mpr hfinite
  rcases hlearn : Scaler.learn engine.zeroVariance table.values table.names
    with cause | statistics
  · have hfit : ((Scaler.new engine.zeroVariance).fitTransform table.values table.names).1 =
        .error cause := by
      rw [Scaler.fitTransform, Scaler.new, hlearn]
    rw [FeatureMatrix.blames_iff_of_learn_eq_error hheight hlearn]
    simp only [groundwork, hmatrix, hensure, hfit, bind, Except.bind, Except.error.injEq]
  · obtain ⟨scaled, hscaled⟩ := Scaler.exists_fitTransform_of_learn hlearn
    have hscaledHeight : 0 < scaled.height :=
      (Scaler.height_of_fitTransform hscaled).symm ▸ hheight
    rw [FeatureMatrix.blames_iff_of_learn_eq_ok hheight hlearn hscaled]
    rcases hscaledFinite : scaled.ensureFinite with cause | _
    · have htraining : p.trainingScores chance scaled = .error cause := by
        rw [ForestParams.trainingScores, hcounts, if_neg (Nat.ne_of_gt hscaledHeight),
          hscaledFinite]
        rfl
      simp only [groundwork, hmatrix, hensure, hscaled, htraining, bind, Except.bind,
        Except.error.injEq]
    · obtain ⟨g, hg⟩ : ∃ g, groundwork chance p engine tree data = .ok g :=
        exists_groundwork_eq_ok hmatrix hensure hscaled hscaledFinite hscaledHeight hcounts
      simp only [hg, reduceCtorEq]

/-- A preparation fails for a fault of the caller's kind only where its groundwork does. -/
theorem prepare_eq_error_iff_of_isClient (hdetector : engine.detector = p.detector chance)
    (now : Time.Instant) {c : α} (hc : IsContamination c) {failure : Failure α}
    (hclient : failure.isClient = true) :
    engine.prepare tree now data c = .error failure ↔
      groundwork chance p engine tree data = .error failure := by
  rw [prepare_eq hdetector now hc]
  rcases hg : groundwork chance p engine tree data with cause | g
  · exact ⟨fun h ↦ congrArg _ (Except.error.inj h), fun h ↦ congrArg _ (Except.error.inj h)⟩
  · refine ⟨fun h ↦ ?_, nofun⟩
    obtain ⟨-, hsound⟩ := isSound_of_groundwork hg
    rcases hoffset : quantile? c g.scores with _ | offset
    · simp only [bind, Except.bind, hoffset] at h
      obtain rfl := Except.error.inj h
      cases hclient
    · obtain ⟨scores, -, hsummary⟩ := hsound.summarize_eq now c offset
      simp only [bind, Except.bind, hoffset, hsummary] at h
      cases h

/-- Settings that are valid give a forest what it asks for. -/
theorem checkCounts_of_validate {s : Settings α} (h : s.validate = .ok ()) :
    (ForestParams.ofSettings s.model : ForestParams α).checkCounts = .ok () := by
  rcases s.validate_cases with ⟨-, hcheck, -⟩ | ⟨hrefused, -⟩ | ⟨fault, _, hrefused, -, -⟩
  · exact ForestParams.checkCounts_eq_ok_iff.mpr (ForestParams.check_eq_ok_iff.mp hcheck).2
  · cases h.symm.trans hrefused
  · cases h.symm.trans hrefused

variable [Numeral α]

/-- What an engine by settings is made of. -/
theorem exists_of_new_eq_ok {s : Settings α} {engine : Engine α (Forest α)}
    (h : new s = .ok engine) :
    ∃ p : ForestParams α, p.checkCounts = .ok () ∧
      engine.detector = p.detector Keystream.chance ∧
      engine.fallback = .ofFile s.training.fallbackDataset := by
  rw [new] at h
  rcases hvalid : s.validate with fault | _
  · rw [hvalid] at h
    cases h
  · rw [hvalid] at h
    obtain rfl := Except.ok.inj h
    exact ⟨.ofSettings s.model, checkCounts_of_validate hvalid, rfl, rfl⟩

/-- A state that was trained is never in its caller's way of being stored. -/
theorem failsOnly_persist {state : TrainedState α (Forest α)}
    (hstatistics : state.scaler.statistics ≠ none) :
    Files.FailsOnly Store.IsForeign (engine.persist state) := by
  rw [persist]
  rcases engine.store with _ | store
  · exact Files.failsOnly_pure _
  · rcases hsome : state.scaler.statistics with _ | statistics
    · exact absurd hsome hstatistics
    · exact Store.failsOnly_save store _ statistics

theorem failsOnly_persist_of_prepare (hdetector : engine.detector = p.detector chance)
    {now : Time.Instant} {c : α} {state : TrainedState α (Forest α)} {summary : TrainingSummary α}
    (h : engine.prepare tree now data c = .ok (state, summary)) :
    Files.FailsOnly Store.IsForeign (engine.persist state) := by
  obtain ⟨-, g, offset, hg, -, rfl, -⟩ := exists_groundwork_of_prepare hdetector h
  obtain ⟨statistics, hstatistics, -⟩ := (isSound_of_groundwork hg).2.exists_statistics
  exact failsOnly_persist (hstatistics ▸ Option.some_ne_none statistics)

/-- Where the caller gives a valid contamination and no data, a training is refused for a failure of
the caller's kind exactly if the fallback data set gives rise to it by itself. -/
theorem train_blames_iff {s : Settings α} (hnew : new s = .ok engine) {c : α}
    (hc : IsContamination c) (now : Time.Instant) (session : Session α (Forest α))
    (failure : Failure α) :
    (∃ session', engine.train now none c session = (.error failure, session')) ∧
        failure.isClient = true ↔
      ∃ table, engine.fallback.load session.disk.tree = .ok table ∧
        table.Blames engine.zeroVariance failure := by
  obtain ⟨p, hcounts, hdetector, hfallback⟩ := exists_of_new_eq_ok hnew
  have hprepare (hclient : failure.isClient = true) {table : FeatureMatrix α}
      (hload : engine.fallback.load session.disk.tree = .ok table) :
      engine.prepare session.disk.tree now none c = .error failure ↔
        table.Blames engine.zeroVariance failure := by
    obtain ⟨hheight, hfinite⟩ := Dataset.exists_of_load_ofFile_eq_ok (hfallback ▸ hload)
    have hmatrix : engine.trainingMatrix session.disk.tree none =
        .ok (table, .fallback engine.fallback.name) := by
      rw [trainingMatrix, Option.filter_none, hload]
      rfl
    rw [prepare_eq_error_iff_of_isClient hdetector now hc hclient,
      groundwork_eq_error_iff hcounts hmatrix hheight hfinite]
  constructor
  · rintro ⟨⟨session', htrain⟩, hclient⟩
    rcases engine.train_cases now none c session with
      ⟨cause, hfail, ht⟩ | ⟨state, summary, cause, disk, hok, hpersist, ht⟩ | ⟨_, _, disk, -, -, ht⟩
    · obtain rfl := Except.error.inj (congrArg Prod.fst (ht.symm.trans htrain))
      rcases hload : engine.fallback.load session.disk.tree with cause' | table
      · -- A table that cannot be loaded is not blamed on the caller.
        obtain ⟨fault, rfl⟩ := Dataset.exists_of_load_ofFile_eq_error (hfallback ▸ hload)
        rw [prepare, trainingMatrix, Option.filter_none, hload] at hfail
        obtain rfl := Except.error.inj hfail
        cases hclient
      · exact ⟨table, rfl, (hprepare hclient hload).mp hfail⟩
    · obtain rfl := Except.error.inj (congrArg Prod.fst (ht.symm.trans htrain))
      have hforeign : Store.IsForeign cause :=
        failsOnly_persist_of_prepare hdetector hok _ _ _ hpersist
      cases hforeign.symm.trans hclient
    · cases congrArg Prod.fst (ht.symm.trans htrain)
  · rintro ⟨table, hload, hblames⟩
    refine ⟨⟨session, ?_⟩, hblames.isClient⟩
    rw [train, (hprepare hblames.isClient hload).mpr hblames]

end Engine

/-- Whatever predictions are refused for is the caller's. A training with a valid contamination and
no data of the caller is refused for a failure of the caller's kind, too, exactly if a column of the
fallback data set does not vary and is refused for that, or if its numbers overflow when they are
standardized. -/
theorem blame_of_failures [Numeral α] :
    (∀ (session : Session α (Forest α)) (series : List α) (failure : Failure α),
      session.predict series = .error failure → failure.IsCallers) ∧
    (∀ (session : Session α (Forest α)) (sequences : List (List α)) (failure : Failure α),
      session.predictBatch sequences = .error failure → failure.IsCallers) ∧
    ∀ (s : Settings α) (engine : Engine α (Forest α)), Engine.new s = .ok engine →
      ∀ c : α, IsContamination c → ∀ (now : Time.Instant) (session : Session α (Forest α))
        (failure : Failure α),
        (∃ session', engine.train now none c session = (.error failure, session')) ∧
            failure.isClient = true ↔
          ∃ table, engine.fallback.load session.disk.tree = .ok table ∧
            table.Blames engine.zeroVariance failure :=
  ⟨Session.failsOnly_predict, Session.failsOnly_predictBatch,
    fun _ _ hnew _ hc ↦ Engine.train_blames_iff hnew hc⟩

/-- Settings that refuse columns which do not vary, and store nothing. -/
def refusingSettings : Settings Float :=
  { (Settings.default : Settings Float) with
    training := { contamination := defaultContamination, zeroVariance := .reject }
    storage := { persist := false } }

/-- A fallback data set with two rows, in which the only column does not vary. -/
def flatFiles : Files.Tree :=
  ⟨[(["data"], .folder), (["fallback.csv", "data"], .file "a\n1\n1\n".toUTF8)]⟩

/-- A training on that data set is blamed on its caller, who has given nothing but a valid
contamination. -/
theorem blame_of_failures_flatFiles : ∃ engine session',
    Engine.new refusingSettings = .ok engine ∧
    engine.train default none 0.1 (.start (.ofTree flatFiles)) =
      (.error (.degenerateFeature 0 "a"), session') ∧
    (Failure.degenerateFeature 0 "a" : Failure Float).isClient = true := by
  obtain ⟨engine, hnew, hfallback, hpolicy⟩ : ∃ engine, Engine.new refusingSettings = .ok engine ∧
      engine.fallback = .ofFile "data/fallback.csv" ∧ engine.zeroVariance = .reject := by
    have hisOk : refusingSettings.validate.isOk = true := by decide +kernel
    rw [Engine.new]
    rcases hvalid : refusingSettings.validate with fault | _
    · rw [hvalid] at hisOk
      cases hisOk
    · exact ⟨_, rfl, rfl, rfl⟩
  have hc : IsContamination (0.1 : Float) := by decide +kernel
  have htable : ((Dataset.ofFile "data/fallback.csv" : Dataset Float).load flatFiles).toOption.any
      (fun table ↦ table.names = ["a"] ∧ table.values.width = 1 ∧
        ∀ j, deviation (table.values.column j) < Scalar.epsilon) = true := by
    decide +kernel
  rcases hload : (Dataset.ofFile "data/fallback.csv" : Dataset Float).load flatFiles
    with failure | table
  · rw [hload] at htable
    cases htable
  rw [hload] at htable
  obtain ⟨hnames, hwidth, hflat⟩ := of_decide_eq_true htable
  have hblames : table.Blames .reject (.degenerateFeature 0 "a") := by
    have hzero : 0 < table.values.width := hwidth ▸ Nat.one_pos
    have hfirst : table.Blames .reject (.degenerateFeature 0 (Scaler.columnName table.names 0)) :=
      .flatColumn ⟨0, hzero⟩ rfl (hflat _) fun k hk ↦ absurd hk (Nat.not_lt_zero k)
    rwa [hnames] at hfirst
  obtain ⟨-, -, htrain⟩ := blame_of_failures (α := Float)
  obtain ⟨⟨session', hfail⟩, hclient⟩ := (htrain _ engine hnew 0.1 hc default
    (.start (.ofTree flatFiles)) (.degenerateFeature 0 "a")).mpr
      ⟨table, hfallback ▸ hload, hpolicy ▸ hblames⟩
  exact ⟨engine, session', hnew, hfail, hclient⟩

end OutlierScoring
