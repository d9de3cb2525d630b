import OutlierScoring.Proofs.Engine.Blame

/-!
# Trainings by settings that were checked

An engine whose settings are valid has nothing left to complain about in them. Its forests pass
their own check, and there are always rows to grow them over: a series that is long enough has at
least one point, and a data set without complete rows is refused when it is loaded. So a training
with the fraction of outliers that the settings expect is never refused for a parameter, nor for
want of data (`Engine.checks_agree`).
-/

namespace OutlierScoring

variable {α : Type} [Scalar α]

/-- The failure has nothing to do with parameters, nor with there being no data at all. -/
def Failure.IsPastChecks (failure : Failure α) : Prop :=
  (∀ parameter value, failure ≠ .invalidParameter parameter value) ∧ failure ≠ .emptySeries

theorem FeatureMatrix.Blames.isPastChecks {table : FeatureMatrix α} {policy : ZeroVariance}
    {failure : Failure α} (h : table.Blames policy failure) : failure.IsPastChecks := by
  cases h with
  | flatColumn => simp [Failure.IsPastChecks]
  | overflow => simp [Failure.IsPastChecks]

namespace Engine

variable {σ : Type} {chance : Chance σ α} {p : ForestParams α} {engine : Engine α (Forest α)}
  {tree : Files.Tree} {data : Option (List α)} {failure : Failure α}

omit [Scalar α] in
/-- A failure that could be one of the checks is the caller's by its kind. -/
theorem isPastChecks_of_isForeign (h : Store.IsForeign failure) : failure.IsPastChecks := by
  constructor
  · rintro parameter value rfl
    cases h
  · rintro rfl
    cases h

variable [Numeral α] {path : String}

/-- There are rows to train on, or a fault of the data set is reported. -/
theorem trainingMatrix_ofFile (hfallback : engine.fallback = .ofFile path)
    (hsamples : 0 < engine.minTrainingSamples) (tree : Files.Tree) (data : Option (List α)) :
    (∃ table source, engine.trainingMatrix tree data = .ok (table, source) ∧
      0 < table.values.height) ∨
    ∃ fault, engine.trainingMatrix tree data = .error (.dataset path fault) := by
  rcases engine.trainingMatrix_cases tree data with ⟨series, -, hlong, hmatrix⟩ | hmatrix
  · refine .inl ⟨_, _, hmatrix, ?_⟩
    rw [FeatureMatrix.ofSeries, Matrix.height_ofSeries]
    exact hsamples.trans_le hlong
  · rw [hmatrix, hfallback]
    rcases hload : (Dataset.ofFile path : Dataset α).load tree with cause | table
    · obtain ⟨fault, rfl⟩ := Dataset.exists_of_load_ofFile_eq_error hload
      exact .inr ⟨fault, rfl⟩
    · exact .inl ⟨table, _, rfl, (Dataset.exists_of_load_ofFile_eq_ok hload).1⟩

/-- What keeps a training from preparing a state lies in the data, if counts and contamination are
as they should be. -/
theorem isPastChecks_of_prepare (hdetector : engine.detector = p.detector chance)
    (hcounts : p.checkCounts = .ok ()) (hfallback : engine.fallback = .ofFile path)
    (hsamples : 0 < engine.minTrainingSamples) (now : Time.Instant) {c : α} (hc : IsContamination c)
    (h : engine.prepare tree now data c = .error failure) : failure.IsPastChecks := by
  by_cases hclient : failure.isClient = true
  · rw [prepare_eq_error_iff_of_isClient hdetector now hc hclient] at h
    rcases trainingMatrix_ofFile hfallback hsamples tree data with
      ⟨table, source, hmatrix, hheight⟩ | ⟨fault, hmatrix⟩
    · rcases hfinite : table.values.ensureFinite with cause | _
      · -- The matrix is looked at before anything else is done with it.
        have hcause : groundwork chance p engine tree data = .error cause := by
          rw [groundwork, hmatrix]
          simp only [bind, Except.bind, hfinite]
        obtain rfl := Except.error.inj (hcause.symm.trans h)
        obtain ⟨row, column, rfl⟩ := Matrix.exists_of_ensureFinite_eq_error hfinite
        simp [Failure.IsPastChecks]
      · have hblames := (groundwork_eq_error_iff hcounts hmatrix hheight
          (Matrix.ensureFinite_eq_ok_iff.mp hfinite)).mp h
        exact hblames.isPastChecks
    · have hcause : groundwork chance p engine tree data = .error (.dataset path fault) := by
        rw [groundwork, hmatrix]
        rfl
      obtain rfl := Except.error.inj (hcause.symm.trans h)
      cases hclient
  · exact isPastChecks_of_isForeign (Bool.eq_false_iff.mpr hclient)

theorem isPastChecks_of_train (hdetector : engine.detector = p.detector chance)
    (hcounts : p.checkCounts = .ok ()) (hfallback : engine.fallback = .ofFile path)
    (hsamples : 0 < engine.minTrainingSamples) {now : Time.Instant} {c : α} (hc : IsContamination c)
    {session session' : Session α (Forest α)}
    (h : engine.train now data c session = (.error failure, session')) : failure.IsPastChecks := by
  rcases engine.train_cases now data c session with
    ⟨cause, hprepare, ht⟩ | ⟨_, _, cause, disk, hprepare, hpersist, ht⟩ | ⟨_, _, disk, -, -, ht⟩
  · obtain rfl := Except.error.inj (congrArg Prod.fst (ht.symm.trans h))
    exact isPastChecks_of_prepare hdetector hcounts hfallback hsamples now hc hprepare
  · obtain rfl := Except.error.inj (congrArg Prod.fst (ht.symm.trans h))
    exact isPastChecks_of_isForeign
      (failsOnly_persist_of_prepare hdetector hprepare _ _ _ hpersist)
  · cases congrArg Prod.fst (ht.symm.trans h)

/-- Valid settings make an engine, and nothing that they could be refused for comes up later. -/
theorem exists_isPastChecks_of_validate {s : Settings α} (h : s.validate = .ok ()) :
    ∃ engine, new s = .ok engine ∧ ∀ now data (session : Session α (Forest α)) failure session',
      engine.train now data s.training.contamination session = (.error failure, session') →
        failure.IsPastChecks := by
  have hnew : new s = .ok (ofParts ((ForestParams.ofSettings s.model).detector Keystream.chance)
      (.ofFile s.training.fallbackDataset) s) := by
    rw [new, h]
    rfl
  refine ⟨_, hnew, fun now data session failure session' htrain ↦ ?_⟩
  rcases s.validate_cases with ⟨-, hcheck, hsamples⟩ | ⟨hrefused, -⟩ | ⟨fault, _, hrefused, -, -⟩
  · exact isPastChecks_of_train rfl (checkCounts_of_validate h) rfl hsamples
      (ForestParams.check_eq_ok_iff.mp hcheck).1 htrain
  · cases h.symm.trans hrefused
  · cases h.symm.trans hrefused

/-- Settings that are valid make an engine that is never kept from training by a parameter or by
there being no data, as long as it is asked for the fraction of outliers that the settings expect.
Settings that are refused, the least number of training samples aside, describe a detector that
finds fault with a parameter on every matrix, and with one that is wrong. For no other settings does
it find fault with a parameter. -/
theorem checks_agree (s : Settings α) :
    (s.validate = .ok () → ∃ engine, new s = .ok engine ∧
      ∀ now data (session : Session α (Forest α)) failure session',
        engine.train now data s.training.contamination session = (.error failure, session') →
          (∀ parameter value, failure ≠ .invalidParameter parameter value) ∧
            failure ≠ .emptySeries) ∧
    (∀ fault, s.validate = .error fault → fault ≠ .notPositive .minTrainingSamples →
      ∀ m : Matrix α, ∃ parameter value,
        ((ForestParams.ofSettings s.model).detector Keystream.chance).fit m
            s.training.contamination = .error (.invalidParameter parameter value) ∧
          s.forestParams.Refuses m (.invalidParameter parameter value)) ∧
    ∀ m : Matrix α,
      (∃ parameter value, ((ForestParams.ofSettings s.model).detector Keystream.chance).fit m
          s.training.contamination = .error (.invalidParameter parameter value)) →
        ∃ fault, s.validate = .error fault ∧ fault ≠ .notPositive .minTrainingSamples :=
  ⟨exists_isPastChecks_of_validate, fun _ h hfault _ ↦ Settings.fit_invalid_of_refused h hfault,
    fun _ ↦ Settings.refused_iff_fit_invalid.mpr⟩

/-- Settings in which the expected fraction of outliers is not a number. -/
def notANumberSettings : Settings Float :=
  { (Settings.default : Settings Float) with training := { contamination := 0 / 0 } }

/-- By the default settings, which are valid, a training on too few values fails for want of the
fallback data set. What is not a number is no fraction of outliers: settings refuse it, and the
detector refuses it for every matrix. -/
theorem checks_agree_notANumber :
    ((Settings.default : Settings Float).validate = .ok () ∧
      ∃ engine failure session', new (Settings.default : Settings Float) = .ok engine ∧
        engine.train default (some [1, 2, 3]) defaultContamination (.start (.ofTree .empty)) =
          (.error failure, session') ∧
        (∀ parameter value, failure ≠ .invalidParameter parameter value) ∧
        failure ≠ .emptySeries) ∧
    notANumberSettings.validate = .error (.contaminationRange (0 / 0)) ∧
      ∀ m : Matrix Float, ∃ parameter value,
        ((ForestParams.ofSettings notANumberSettings.model).detector Keystream.chance).fit m
          (0 / 0) = .error (.invalidParameter parameter value) := by
  constructor
  · have hvalid : (Settings.default : Settings Float).validate = .ok () :=
      Settings.validate_default (by decide +kernel)
    obtain ⟨engine, hnew, hpast⟩ := (checks_agree (Settings.default : Settings Float)).1 hvalid
    obtain ⟨failure, session', htrain⟩ : ∃ failure session',
        engine.train default (some [1, 2, 3]) defaultContamination (.start (.ofTree .empty)) =
          (.error failure, session') := by
      rw [new, hvalid] at hnew
      obtain rfl := Except.ok.inj hnew
      exact ⟨_, _, rfl⟩
    exact ⟨hvalid, engine, failure, session', hnew, htrain, hpast _ _ _ _ _ htrain⟩
  have hc : ¬IsContamination notANumberSettings.training.contamination := by decide +kernel
  have hrefused : notANumberSettings.validate = .error (.contaminationRange (0 / 0)) := by
    rw [Settings.validate, if_neg (by decide), if_neg (by decide), if_neg (by decide), if_pos hc]
    rfl
  refine ⟨hrefused, fun m ↦ ?_⟩
  obtain ⟨-, hdetector, -⟩ := checks_agree notANumberSettings
  obtain ⟨parameter, value, hfit, -⟩ := hdetector _ hrefused (by simp) m
  exact ⟨parameter, value, hfit⟩

end Engine

end OutlierScoring
