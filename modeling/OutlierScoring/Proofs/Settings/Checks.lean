import OutlierScoring.Proofs.Forest.Accesses
import OutlierScoring.Settings.Basic

/-!
# Two checks of the same parameters

What a forest is grown by is checked twice: by `Settings.validate`, before an engine is made, and by
`ForestParams.check`, before every fit. The two go through the parameters in different orders, so
that each of them may name another one where several are wrong. They agree on whether anything is
wrong (`Settings.validate_cases`): what settings are refused for, the least number of training
samples aside, keeps a forest from being fitted to any matrix, whether it has rows or not, and
nothing else is a reason to find fault with a parameter (`Settings.refused_iff_fit_invalid`).
-/

namespace OutlierScoring

variable {α σ : Type} [Scalar α]

theorem Matrix.exists_of_ensureFinite_eq_error {m : Matrix α} {failure : Failure α}
    (h : m.ensureFinite = .error failure) : ∃ row column, failure = .nonFiniteValue row column := by
  rw [Matrix.ensureFinite] at h
  split at h
  · cases h
  · exact ⟨_, _, (Except.error.inj h).symm⟩

namespace ForestParams

variable {p : ForestParams α} {failure : Failure α}

theorem check_of_not_isContamination (hc : ¬IsContamination p.contamination) :
    p.check = .error (.invalidParameter .contamination p.contamination) := by
  rw [check_eq, checkContamination, if_neg hc]
  rfl

theorem check_of_isContamination (hc : IsContamination p.contamination) :
    p.check = p.checkCounts := by
  rw [check_eq, checkContamination, if_pos hc]
  rfl

theorem check_eq_ok_iff : p.check = .ok () ↔
    IsContamination p.contamination ∧ p.estimators ≠ 0 ∧ p.workers ≠ some 0 ∧
      p.sampleLimit ≠ 0 := by
  by_cases hc : IsContamination p.contamination
  · rw [check_of_isContamination hc, checkCounts_eq_ok_iff]
    exact (and_iff_right hc).symm
  · rw [check_of_not_isContamination hc]
    exact ⟨nofun, fun h ↦ absurd h.1 hc⟩

/-- The check finds fault with parameters only, and the one that it names is wrong. -/
theorem exists_of_check_eq_error (h : p.check = .error failure) :
    ∃ parameter value, failure = .invalidParameter parameter value ∧
      ∀ m : Matrix α, p.Refuses m failure := by
  by_cases hc : IsContamination p.contamination
  · rw [check_of_isContamination hc, checkCounts] at h
    by_cases hestimators : p.estimators = 0
    · rw [if_pos hestimators] at h
      obtain rfl := Except.error.inj h
      exact ⟨_, _, rfl, fun _ ↦ .estimators hestimators⟩
    by_cases hworkers : p.workers = some 0
    · rw [if_neg hestimators, if_pos hworkers] at h
      obtain rfl := Except.error.inj h
      exact ⟨_, _, rfl, fun _ ↦ .workers hworkers⟩
    by_cases hlimit : p.sampleLimit = 0
    · rw [if_neg hestimators, if_neg hworkers, if_pos hlimit] at h
      obtain rfl := Except.error.inj h
      exact ⟨_, _, rfl, fun _ ↦ .sampleLimit hlimit⟩
    rw [if_neg hestimators, if_neg hworkers, if_neg hlimit] at h
    cases h
  · rw [check_of_not_isContamination hc] at h
    obtain rfl := Except.error.inj h
    exact ⟨_, _, rfl, fun _ ↦ .contamination hc⟩

variable {chance : Chance σ α} {m : Matrix α}

/-- The parameters are checked first, before the matrix is looked at. -/
theorem fit_of_check_eq_error (h : p.check = .error failure) : p.fit chance m = .error failure := by
  rw [fit, h]
  rfl

/-- A fit by parameters that pass the check is never refused for one of them. -/
theorem fit_ne_invalidParameter (h : p.check = .ok ()) (parameter : Parameter) (value : α) :
    p.fit chance m ≠ .error (.invalidParameter parameter value) := by
  intro hfail
  rw [fit_eq_accept, accept, h] at hfail
  by_cases hheight : m.height = 0
  · simp only [hheight, if_true] at hfail
    cases hfail
  simp only [hheight, if_false] at hfail
  rcases hfinite : m.ensureFinite with cause | _
  · obtain ⟨row, column, rfl⟩ := Matrix.exists_of_ensureFinite_eq_error hfinite
    simp only [bind, Except.bind, hfinite] at hfail
    cases hfail
  · obtain ⟨scores, hscores⟩ := (splitsInside_grow chance p m).exists_scores_eq_ok rfl hfinite
    simp only [bind, Except.bind, hfinite, hscores] at hfail
    rcases hoffset : quantile? p.contamination scores with _ | offset
    · simp only [hoffset] at hfail
      cases hfail
    · simp only [hoffset] at hfail
      cases hfail

end ForestParams

namespace Settings

/-- What a training with the fraction of outliers of the settings grows its forest by. -/
def forestParams (s : Settings α) : ForestParams α :=
  { (ForestParams.ofSettings s.model : ForestParams α) with
    contamination := s.training.contamination }

/-- Nothing else is looked at when settings are checked. -/
theorem validate_eq_ok {s : Settings α} (hestimators : s.model.estimators ≠ 0)
    (hlimit : s.model.sampleLimit ≠ 0) (hworkers : s.model.workers ≠ some 0)
    (hc : IsContamination s.training.contamination) (hsamples : s.training.minTrainingSamples ≠ 0) :
    s.validate = .ok () := by
  rw [validate, if_neg hestimators, if_neg hlimit, if_neg hworkers, if_neg (not_not.mpr hc),
    if_neg hsamples]
  rfl

/-- Settings are valid, or lack a least number of training samples and nothing else, or are refused
for something that the check of the parameters finds fault with, too. -/
theorem validate_cases (s : Settings α) :
    (s.validate = .ok () ∧ s.forestParams.check = .ok () ∧ 0 < s.training.minTrainingSamples) ∨
    (s.validate = .error (.notPositive .minTrainingSamples) ∧ s.forestParams.check = .ok ()) ∨
    ∃ fault failure, s.validate = .error fault ∧ fault ≠ .notPositive .minTrainingSamples ∧
      s.forestParams.check = .error failure := by
  have hcheck : s.forestParams.check = .ok () ↔ _ := ForestParams.check_eq_ok_iff
  have hfails (h : s.forestParams.check ≠ .ok ()) :
      ∃ failure, s.forestParams.check = .error failure := by
    rcases hcheck : s.forestParams.check with failure | _
    · exact ⟨failure, rfl⟩
    · exact absurd hcheck h
  by_cases hestimators : s.model.estimators = 0
  · obtain ⟨failure, hfail⟩ := hfails fun hok ↦ (hcheck.mp hok).2.1 hestimators
    rw [validate, if_pos hestimators]
    exact .inr (.inr ⟨_, failure, rfl, nofun, hfail⟩)
  by_cases hlimit : s.model.sampleLimit = 0
  · obtain ⟨failure, hfail⟩ := hfails fun hok ↦ (hcheck.mp hok).2.2.2 hlimit
    rw [validate, if_neg hestimators, if_pos hlimit]
    exact .inr (.inr ⟨_, failure, rfl, nofun, hfail⟩)
  by_cases hworkers : s.model.workers = some 0
  · obtain ⟨failure, hfail⟩ := hfails fun hok ↦ (hcheck.mp hok).2.2.1 hworkers
    rw [validate, if_neg hestimators, if_neg hlimit, if_pos hworkers]
    exact .inr (.inr ⟨_, failure, rfl, nofun, hfail⟩)
  by_cases hc : IsContamination s.training.contamination
  · have hok := hcheck.mpr ⟨hc, hestimators, hworkers, hlimit⟩
    by_cases hsamples : s.training.minTrainingSamples = 0
    · rw [validate, if_neg hestimators, if_neg hlimit, if_neg hworkers, if_neg (not_not.mpr hc),
        if_pos hsamples]
      exact .inr (.inl ⟨rfl, hok⟩)
    · exact .inl ⟨validate_eq_ok hestimators hlimit hworkers hc hsamples, hok,
        Nat.pos_of_ne_zero hsamples⟩
  · obtain ⟨failure, hfail⟩ := hfails fun hok ↦ hc (hcheck.mp hok).1
    rw [validate, if_neg hestimators, if_neg hlimit, if_neg hworkers, if_pos hc]
    exact .inr (.inr ⟨_, failure, rfl, nofun, hfail⟩)

/-- The default settings are valid where the number that stands for a tenth is a contamination. -/
theorem validate_default (hc : IsContamination (defaultContamination : α)) :
    (default : Settings α).validate = .ok () :=
  validate_eq_ok (Nat.succ_ne_zero 99) (Nat.succ_ne_zero 255)
    (Option.some_ne_none 0).symm hc (Nat.succ_ne_zero 9)

variable {s : Settings α} {chance : Chance σ α} {m : Matrix α}

/-- What settings are refused for keeps the detector that they describe from fitting any matrix, for
a parameter that is wrong. -/
theorem fit_invalid_of_refused {fault : SettingsFault α} (h : s.validate = .error fault)
    (hfault : fault ≠ .notPositive .minTrainingSamples) : ∃ parameter value,
      ((ForestParams.ofSettings s.model).detector chance).fit m s.training.contamination =
        .error (.invalidParameter parameter value) ∧
      s.forestParams.Refuses m (.invalidParameter parameter value) := by
  rcases s.validate_cases with ⟨hvalid, -, -⟩ | ⟨hsamples, -⟩ | ⟨_, failure, -, -, hcheck⟩
  · cases hvalid.symm.trans h
  · exact absurd (Except.error.inj (h.symm.trans hsamples)) hfault
  · obtain ⟨parameter, value, rfl, hrefuses⟩ := ForestParams.exists_of_check_eq_error hcheck
    exact ⟨parameter, value, ForestParams.fit_of_check_eq_error hcheck, hrefuses m⟩

/-- Settings are refused, the least number of training samples aside, exactly if the detector that
they describe finds fault with one of its parameters. -/
theorem refused_iff_fit_invalid :
    (∃ fault, s.validate = .error fault ∧ fault ≠ .notPositive .minTrainingSamples) ↔
      ∃ parameter value,
        ((ForestParams.ofSettings s.model).detector chance).fit m s.training.contamination =
          .error (.invalidParameter parameter value) := by
  constructor
  · rintro ⟨fault, h, hfault⟩
    obtain ⟨parameter, value, hfit, -⟩ := fit_invalid_of_refused h hfault
    exact ⟨parameter, value, hfit⟩
  · rintro ⟨parameter, value, hfit⟩
    rcases s.validate_cases with ⟨-, hcheck, -⟩ | ⟨-, hcheck⟩ | ⟨fault, _, hrefused, hfault, -⟩
    · exact absurd hfit (ForestParams.fit_ne_invalidParameter hcheck parameter value)
    · exact absurd hfit (ForestParams.fit_ne_invalidParameter hcheck parameter value)
    · exact ⟨fault, hrefused, hfault⟩

end Settings

end OutlierScoring
