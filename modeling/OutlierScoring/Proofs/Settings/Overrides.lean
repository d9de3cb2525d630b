import OutlierScoring.Proofs.Outcome
import OutlierScoring.Proofs.Settings.Values

/-!
# Settings under an environment

An override looks at one variable and changes one setting (`Override.Sets`). So what comes of all
overrides, if they can be made, is known setting by setting (`Settings.IsOverridden`), and they may
as well be made again (`Settings.override_again`).

Overrides stop at the first variable that cannot be read. What has been done by then is what the
same overrides come to in an environment in which only the variables before that one are set
(`Settings.exists_of_override_eq_error`).
-/

namespace OutlierScoring

variable {α β : Type}

/-! ### One setting -/

/-- What a setting is after a look at the variable that may override it. -/
inductive Overridden (meaning : String → β → Prop) (before : β) : Option String → β → Prop
  | byVariable {value : String} {b : β} : meaning value b → Overridden meaning before (some value) b
  | kept : Overridden meaning before none before

namespace Overridden

variable {meaning : String → β → Prop} {before b : β} {value? : Option String}

theorem again (h : Overridden meaning before value? b) : Overridden meaning b value? b := by
  cases h with
  | byVariable hmeans => exact .byVariable hmeans
  | kept => exact .kept

theorem exists_means {value : String} (h : Overridden meaning before (some value) b) :
    ∃ b, meaning value b := by
  cases h with
  | byVariable hmeans => exact ⟨b, hmeans⟩

end Overridden

/-! ### One override -/

namespace Override

/-- The override sets one setting, and nothing else, to what the value of its variable says. -/
structure Sets (o : Override α) (meaning : String → β → Prop) (get : Settings α → β)
    (change : β → Settings α → Settings α) : Prop where
  apply_eq_ok_iff {value : String} {s s' : Settings α} :
    o.apply value s = .ok s' ↔ ∃ b, meaning value b ∧ change b s = s'
  change_get (s : Settings α) : change (get s) s = s

theorem sets_verbatim {name : String} {change : String → Settings α → Settings α}
    (get : Settings α → String) (hself : ∀ s, change (get s) s = s) :
    (verbatim name change).Sets Eq get change where
  apply_eq_ok_iff {value s s'} := by
    constructor
    · intro h
      exact ⟨value, rfl, Except.ok.inj h⟩
    · rintro ⟨_, rfl, rfl⟩
      rfl
  change_get := hself

theorem sets_parsed {source : ParsedVariable} {read : String → Option β}
    {change : β → Settings α → Settings α} {meaning : String → β → Prop}
    (hread : ∀ {value b}, meaning value b ↔ read (Text.trim value) = some b)
    (get : Settings α → β) (hself : ∀ s, change (get s) s = s) :
    (parsed source read change).Sets meaning get change where
  apply_eq_ok_iff {value s s'} := by
    simp only [hread, parsed]
    rcases read (Text.trim value) with _ | b
    · simp
    · simp
  change_get := hself

end Override

namespace Settings

/-! ### Runs of overrides -/

variable {env env' : Environment} {s s' : Settings α} {fault : SettingsFault α}

theorem overrideBy_cons {o : Override α} {meaning : String → β → Prop} {get : Settings α → β}
    {change : β → Settings α → Settings α} (h : o.Sets meaning get change)
    {rest : List (Override α)} :
    overrideBy env (o :: rest) s = (.ok (), s') ↔
      ∃ b, Overridden meaning (get s) (env o.variableName) b ∧
        overrideBy env rest (change b s) = (.ok (), s') := by
  rw [overrideBy]
  rcases env o.variableName with _ | value
  · constructor
    · intro hrun
      exact ⟨get s, .kept, (h.change_get s).symm ▸ hrun⟩
    · rintro ⟨b, hb, hrun⟩
      cases hb
      rwa [h.change_get] at hrun
  rcases happly : o.apply value s with fault | changed
  · simp only [happly]
    constructor
    · intro hrun
      cases congrArg Prod.fst hrun
    · rintro ⟨b, hb, -⟩
      cases hb with
      | byVariable hmeans => cases happly.symm.trans (h.apply_eq_ok_iff.mpr ⟨b, hmeans, rfl⟩)
  · simp only [happly]
    constructor
    · intro hrun
      obtain ⟨b, hmeans, rfl⟩ := h.apply_eq_ok_iff.mp happly
      exact ⟨b, .byVariable hmeans, hrun⟩
    · rintro ⟨b, hb, hrun⟩
      cases hb with
      | byVariable hmeans =>
        obtain rfl := Except.ok.inj (happly.symm.trans (h.apply_eq_ok_iff.mpr ⟨b, hmeans, rfl⟩))
        exact hrun

/-- Overrides look at their own variables only. -/
theorem overrideBy_congr {os : List (Override α)}
    (h : ∀ o ∈ os, env o.variableName = env' o.variableName) (s : Settings α) :
    overrideBy env os s = overrideBy env' os s := by
  induction os generalizing s with
  | nil => rfl
  | cons o rest ih =>
    have hrest := ih fun o ho ↦ h o (List.mem_cons_of_mem _ ho)
    simp only [overrideBy, h o List.mem_cons_self, hrest]

theorem overrideBy_of_unset {os : List (Override α)} (h : ∀ o ∈ os, env o.variableName = none)
    (s : Settings α) : overrideBy env os s = (.ok (), s) := by
  induction os with
  | nil => rfl
  | cons o rest ih =>
    rw [overrideBy, h o List.mem_cons_self]
    exact ih fun o ho ↦ h o (List.mem_cons_of_mem _ ho)

theorem overrideBy_append {before rest : List (Override α)} {middle : Settings α}
    (h : overrideBy env before s = (.ok (), middle)) :
    overrideBy env (before ++ rest) s = overrideBy env rest middle := by
  induction before generalizing s with
  | nil =>
    cases h
    rfl
  | cons o before ih =>
    rw [List.cons_append, overrideBy]
    rw [overrideBy] at h
    rcases hvalue : env o.variableName with _ | value
    · rw [hvalue] at h
      exact ih h
    rw [hvalue] at h
    rcases happly : o.apply value s with fault | changed
    · simp only [happly] at h
      cases congrArg Prod.fst h
    · simp only [happly] at h ⊢
      exact ih h

/-- Where overrides stop, the ones before have been made, and the next one cannot be made. -/
theorem exists_of_overrideBy_eq_error {os : List (Override α)}
    (h : overrideBy env os s = (.error fault, s')) :
    ∃ before o after value, os = before ++ o :: after ∧
      overrideBy env before s = (.ok (), s') ∧ env o.variableName = some value ∧
      o.apply value s' = .error fault := by
  induction os generalizing s with
  | nil => cases congrArg Prod.fst h
  | cons o rest ih =>
    rw [overrideBy] at h
    rcases hvalue : env o.variableName with _ | value
    · rw [hvalue] at h
      obtain ⟨before, o', after, value, rfl, hrun, hset, hfail⟩ := ih h
      refine ⟨o :: before, o', after, value, rfl, ?_, hset, hfail⟩
      rw [overrideBy, hvalue]
      exact hrun
    rw [hvalue] at h
    rcases happly : o.apply value s with cause | changed
    · simp only [happly] at h
      cases h
      exact ⟨[], o, rest, value, rfl, rfl, hvalue, happly⟩
    · simp only [happly] at h
      obtain ⟨before, o', after, value', rfl, hrun, hset, hfail⟩ := ih h
      refine ⟨o :: before, o', after, value', rfl, ?_, hset, hfail⟩
      simp only [overrideBy, hvalue, happly]
      exact hrun

end Settings

/-! ### The seven overrides -/

/-- The variables in the order in which they are looked at. -/
def Override.names : List String :=
  ["ANOMALY_CONTAMINATION", "ANOMALY_RANDOM_SEED", "ANOMALY_FALLBACK_DATASET", "ANOMALY_PERSIST",
    "ANOMALY_MODEL_PATH", "ANOMALY_SCALER_PATH", "ANOMALY_LOG_LEVEL"]

theorem Override.map_variableName_all [Numeral α] :
    (all : List (Override α)).map (·.variableName) = names := rfl

theorem Override.nodup_names : names.Nodup := by decide

/-- The environment in which only the variables are set that are looked at before the given one. -/
def Environment.before (env : Environment) (source : ParsedVariable) : Environment := fun name ↦
  if name ∈ Override.names.takeWhile (· ≠ source.name) then env name else none

variable [Numeral α]

/-- The value of a variable is of the form that the variable asks for: a number, a natural number
below `2 ^ 64` or a truth value, with any blanks around it. -/
def ParsedVariable.Reads (α : Type) [Numeral α] (source : ParsedVariable) (value : String) : Prop :=
  match source with
  | contamination => ∃ x : α, Text.Means Numeral.IsText value x
  | randomSeed => ∃ n, Text.Means IsCount value n
  | persist => ∃ b, Text.Means IsTruthValue value b

namespace Settings

/-- The second settings are the first ones, with all overrides made that the environment asks for.
The five settings that have no variable are the same. -/
structure IsOverridden (env : Environment) (s s' : Settings α) : Prop where
  contamination : Overridden (Text.Means Numeral.IsText) s.training.contamination
    (env "ANOMALY_CONTAMINATION") s'.training.contamination
  randomSeed : Overridden (Text.Means IsCount) s.model.randomSeed (env "ANOMALY_RANDOM_SEED")
    s'.model.randomSeed
  fallbackDataset : Overridden Eq
    s.training.fallbackDataset (env "ANOMALY_FALLBACK_DATASET") s'.training.fallbackDataset
  persist : Overridden (Text.Means IsTruthValue) s.storage.persist (env "ANOMALY_PERSIST")
    s'.storage.persist
  modelPath : Overridden Eq s.storage.modelPath (env "ANOMALY_MODEL_PATH") s'.storage.modelPath
  scalerPath : Overridden Eq
    s.storage.scalerPath (env "ANOMALY_SCALER_PATH") s'.storage.scalerPath
  level : Overridden Eq s.logging.level (env "ANOMALY_LOG_LEVEL") s'.logging.level
  estimators : s'.model.estimators = s.model.estimators
  sampleLimit : s'.model.sampleLimit = s.model.sampleLimit
  workers : s'.model.workers = s.model.workers
  minTrainingSamples : s'.training.minTrainingSamples = s.training.minTrainingSamples
  zeroVariance : s'.training.zeroVariance = s.training.zeroVariance

variable {env : Environment} {s s' : Settings α} {fault : SettingsFault α}

/-- What comes of all overrides, setting by setting. -/
theorem override_eq_ok_iff : s.override env = (.ok (), s') ↔ s.IsOverridden env s' := by
  constructor
  · intro h
    obtain ⟨_, hcontamination, h⟩ := (overrideBy_cons
      (Override.sets_parsed Override.means_number_iff (·.training.contamination) fun _ ↦ rfl)).mp h
    obtain ⟨_, hseed, h⟩ := (overrideBy_cons
      (Override.sets_parsed Override.means_count_iff (·.model.randomSeed) fun _ ↦ rfl)).mp h
    obtain ⟨_, hdataset, h⟩ := (overrideBy_cons
      (Override.sets_verbatim (·.training.fallbackDataset) fun _ ↦ rfl)).mp h
    obtain ⟨_, hpersist, h⟩ := (overrideBy_cons
      (Override.sets_parsed Override.means_truthValue_iff (·.storage.persist) fun _ ↦ rfl)).mp h
    obtain ⟨_, hmodel, h⟩ := (overrideBy_cons
      (Override.sets_verbatim (·.storage.modelPath) fun _ ↦ rfl)).mp h
    obtain ⟨_, hscaler, h⟩ := (overrideBy_cons
      (Override.sets_verbatim (·.storage.scalerPath) fun _ ↦ rfl)).mp h
    obtain ⟨_, hlevel, h⟩ := (overrideBy_cons
      (Override.sets_verbatim (·.logging.level) fun _ ↦ rfl)).mp h
    cases h
    exact ⟨hcontamination, hseed, hdataset, hpersist, hmodel, hscaler, hlevel, rfl, rfl, rfl, rfl,
      rfl⟩
  · intro h
    refine (overrideBy_cons (Override.sets_parsed Override.means_number_iff
      (·.training.contamination) fun _ ↦ rfl)).mpr ⟨_, h.contamination, ?_⟩
    refine (overrideBy_cons (Override.sets_parsed Override.means_count_iff (·.model.randomSeed)
      fun _ ↦ rfl)).mpr ⟨_, h.randomSeed, ?_⟩
    refine (overrideBy_cons (Override.sets_verbatim (·.training.fallbackDataset) fun _ ↦ rfl)).mpr
      ⟨_, h.fallbackDataset, ?_⟩
    refine (overrideBy_cons (Override.sets_parsed Override.means_truthValue_iff (·.storage.persist)
      fun _ ↦ rfl)).mpr ⟨_, h.persist, ?_⟩
    refine (overrideBy_cons (Override.sets_verbatim (·.storage.modelPath) fun _ ↦ rfl)).mpr
      ⟨_, h.modelPath, ?_⟩
    refine (overrideBy_cons (Override.sets_verbatim (·.storage.scalerPath) fun _ ↦ rfl)).mpr
      ⟨_, h.scalerPath, ?_⟩
    refine (overrideBy_cons (Override.sets_verbatim (·.logging.level) fun _ ↦ rfl)).mpr
      ⟨_, h.level, ?_⟩
    show (Except.ok (), (⟨⟨s.model.estimators, s.model.sampleLimit, _, s.model.workers⟩,
      ⟨_, s.training.minTrainingSamples, _, s.training.zeroVariance⟩, _, _⟩ : Settings α)) = _
    rw [← h.estimators, ← h.sampleLimit, ← h.workers, ← h.minTrainingSamples, ← h.zeroVariance]

/-- Overrides that could be made can be made again, and change nothing any more. -/
theorem override_again (h : s.override env = (.ok (), s')) : s'.override env = (.ok (), s') := by
  rw [override_eq_ok_iff] at h ⊢
  exact ⟨h.contamination.again, h.randomSeed.again, h.fallbackDataset.again, h.persist.again,
    h.modelPath.again, h.scalerPath.again, h.level.again, rfl, rfl, rfl, rfl, rfl⟩

/-! ### The first variable that cannot be read -/

theorem IsOverridden.reads (h : s.IsOverridden env s') {source : ParsedVariable} {value : String}
    (hvalue : env source.name = some value) : source.Reads α value := by
  cases source with
  | contamination => exact (hvalue ▸ h.contamination).exists_means
  | randomSeed => exact (hvalue ▸ h.randomSeed).exists_means
  | persist => exact (hvalue ▸ h.persist).exists_means

omit [Numeral α] in
theorem of_parsed_eq_error {source : ParsedVariable} {read : String → Option β}
    {change : β → Settings α → Settings α} {meaning : String → β → Prop}
    (hread : ∀ {value b}, meaning value b ↔ read (Text.trim value) = some b) {value : String}
    (h : (Override.parsed source read change).apply value s = .error fault) :
    (¬∃ b, meaning value b) ∧ fault = .badVariable source value := by
  simp only [Override.parsed] at h
  rcases hvalue : read (Text.trim value) with _ | b
  · rw [hvalue] at h
    exact ⟨by simp [hread, hvalue], (Except.error.inj h).symm⟩
  · rw [hvalue] at h
    cases h

/-- An override fails only if its variable is one that cannot be read, and says which. -/
theorem exists_of_apply_eq_error {o : Override α} (ho : o ∈ (Override.all : List (Override α)))
    {value : String} (h : o.apply value s = .error fault) :
    ∃ source : ParsedVariable, o.variableName = source.name ∧ ¬source.Reads α value ∧
      fault = .badVariable source value := by
  simp only [Override.all, List.mem_cons, List.not_mem_nil, or_false] at ho
  rcases ho with rfl | rfl | rfl | rfl | rfl | rfl | rfl
  · exact ⟨.contamination, rfl, of_parsed_eq_error Override.means_number_iff h⟩
  · exact ⟨.randomSeed, rfl, of_parsed_eq_error Override.means_count_iff h⟩
  · cases h
  · exact ⟨.persist, rfl, of_parsed_eq_error Override.means_truthValue_iff h⟩
  · cases h
  · cases h
  · cases h

omit [Numeral α] in
/-- Of names that are all different, those before the given one are the names of what comes before
it. -/
theorem takeWhile_ne {os before after : List (Override α)} {o : Override α}
    (hos : os = before ++ o :: after) (hnodup : (os.map (·.variableName)).Nodup) :
    (os.map (·.variableName)).takeWhile (· ≠ o.variableName) = before.map (·.variableName) := by
  subst hos
  rw [List.map_append, List.map_cons] at hnodup ⊢
  have hnew := (List.nodup_append.mp hnodup).2.2
  rw [List.takeWhile_append_of_pos, List.takeWhile_cons_of_neg (by simp), List.append_nil]
  intro name hname
  exact decide_eq_true (hnew name hname _ List.mem_cons_self)

/-- Where the overrides stop at a variable, exactly those have been made that come before it. -/
theorem exists_of_override_eq_error (h : s.override env = (.error fault, s')) :
    ∃ source value, fault = .badVariable source value ∧ env source.name = some value ∧
      ¬source.Reads α value ∧ s.IsOverridden (env.before source) s' := by
  obtain ⟨before, o, after, value, hall, hrun, hset, hfail⟩ := exists_of_overrideBy_eq_error h
  have ho : o ∈ (Override.all : List (Override α)) := by
    rw [hall]
    simp
  obtain ⟨source, hname, hbad, rfl⟩ := exists_of_apply_eq_error ho hfail
  refine ⟨source, value, rfl, hname ▸ hset, hbad, override_eq_ok_iff.mp ?_⟩
  have hnames : Override.names.takeWhile (· ≠ source.name) = before.map (·.variableName) :=
    hname ▸ takeWhile_ne hall Override.nodup_names
  have hsame : ∀ o' ∈ before, env o'.variableName = env.before source o'.variableName := by
    intro o' ho'
    rw [Environment.before, hnames, if_pos (List.mem_map_of_mem ho')]
  have hunset : ∀ o' ∈ o :: after, env.before source o'.variableName = none := by
    intro o' ho'
    have hnodup : ((before ++ o :: after).map (·.variableName)).Nodup :=
      hall ▸ Override.nodup_names
    rw [List.map_append] at hnodup
    rw [Environment.before, hnames, if_neg]
    intro hmem
    exact (List.nodup_append.mp hnodup).2.2 _ hmem _ (List.mem_map_of_mem ho') rfl
  rw [override, hall, overrideBy_append (overrideBy_congr hsame s ▸ hrun)]
  exact overrideBy_of_unset hunset s'

/-- Overrides fail exactly if a variable is set that cannot be read. -/
theorem override_fails_iff : (∃ fault s', s.override env = (.error fault, s')) ↔
    ∃ (source : ParsedVariable) (value : String), env source.name = some value ∧
      ¬source.Reads α value := by
  constructor
  · rintro ⟨fault, s', h⟩
    obtain ⟨source, value, -, hset, hbad, -⟩ := exists_of_override_eq_error h
    exact ⟨source, value, hset, hbad⟩
  · rintro ⟨source, value, hset, hbad⟩
    rcases h : s.override env with ⟨fault | _, s'⟩
    · exact ⟨fault, s', rfl⟩
    · exact absurd ((override_eq_ok_iff.mp h).reads hset) hbad

/-- The variable that overrides stop at is the first one that cannot be read. -/
theorem IsOverridden.reads_before {source : ParsedVariable}
    (h : s.IsOverridden (env.before source) s') {earlier : ParsedVariable}
    (hearlier : earlier.name ∈ Override.names.takeWhile (· ≠ source.name)) {value : String}
    (hvalue : env earlier.name = some value) : earlier.Reads α value :=
  h.reads (by rwa [Environment.before, if_pos hearlier])

end Settings

end OutlierScoring
