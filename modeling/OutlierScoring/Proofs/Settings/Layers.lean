import Mathlib.Data.List.Nodup
import OutlierScoring.Proofs.Settings.Overrides

/-!
# Layers of settings

Settings from a file come in three layers. What has no entry in the file has its default value, and
what has a variable that is set has the value of that variable. A document says what it says about a
setting independently of all other settings (`Toml.setting?`), so that each layer can be described
setting by setting: the lower two by `Settings.IsRead`, the upper one by `Settings.IsOverridden`.
Settings that are loaded are made of these layers, and are valid (`Settings.load_layers`).
-/

namespace OutlierScoring

variable {α β : Type}

/-- What a setting is by its entry in a document, which may be absent. -/
inductive Supplied (meaning : Toml → β → Prop) (default : β) : Option Toml → β → Prop
  | entry {t : Toml} {b : β} : meaning t b → Supplied meaning default (some t) b
  | absent : Supplied meaning default none default

theorem supplied_of_field {meaning : Toml → β → Prop} {read : Toml → Option β}
    (hread : ∀ {t b}, read t = some b → meaning t b) {default b : β} {given? : Option Toml}
    (h : DocumentView.field read default given? = some b) : Supplied meaning default given? b := by
  cases given? with
  | none =>
    obtain rfl := Option.some.inj h
    exact .absent
  | some t => exact .entry (hread h)

/-! ### What entries mean -/

namespace Toml

def IsNat (t : Toml) (n : Nat) : Prop := t = .integer n

/-- A natural number where there might be none. -/
def IsSomeNat (t : Toml) (n : Option Nat) : Prop := ∃ m, n = some m ∧ t.IsNat m

def IsBool (t : Toml) (b : Bool) : Prop := t = .bool b

def IsText (t : Toml) (s : String) : Prop := t = .text s

/-- A number with or without a point, which need not be finite. -/
inductive IsNumber [Numeral α] : Toml → α → Prop
  | integer (n : Int) : IsNumber (.integer n) (Numeral.ofDecimal ⟨n < 0, n.natAbs, 0⟩)
  | real (x : NumberView) : IsNumber (.real x) (Numeral.ofView x)

/-- A table or an array without any entries. -/
inductive IsVoid : Toml → Prop
  | table (origin : Origin) : IsVoid (.table origin [])
  | list : IsVoid (.list [])
  | tables : IsVoid (.tables [])

/-- A policy by its name, which may also be the only key of a table that says no more about it. -/
inductive IsPolicy : Toml → ZeroVariance → Prop
  | text (policy : ZeroVariance) : IsPolicy (.text policy.name) policy
  | key (policy : ZeroVariance) (origin : Origin) {value : Toml} : IsVoid value →
      IsPolicy (.table origin [(policy.name, value)]) policy

theorem isNat_of_nat? {t : Toml} {n : Nat} (h : nat? t = some n) : t.IsNat n := by
  cases t with
  | integer m =>
    rw [nat?, Option.ite_none_right_eq_some] at h
    obtain ⟨hm, h⟩ := h
    obtain rfl := Option.some.inj h
    rw [IsNat, Int.toNat_of_nonneg hm]
  | _ => cases h

theorem isSomeNat_of_optionalNat? [Numeral α] {t : Toml} {n : Option Nat}
    (h : (view (α := α)).optionalNat? t = some n) : t.IsSomeNat n := by
  obtain ⟨m, hm, rfl⟩ := Option.map_eq_some_iff.mp h
  exact ⟨m, rfl, isNat_of_nat? hm⟩

theorem isBool_of_bool? [Numeral α] {t : Toml} {b : Bool}
    (h : (view (α := α)).bool? t = some b) : t.IsBool b := by
  cases t with
  | bool b' => exact congrArg Toml.bool (Option.some.inj h)
  | _ => cases h

theorem isText_of_text? [Numeral α] {t : Toml} {s : String}
    (h : (view (α := α)).text? t = some s) : t.IsText s := by
  cases t with
  | text s' => exact congrArg Toml.text (Option.some.inj h)
  | _ => cases h

theorem isNumber_of_scalar? [Numeral α] {t : Toml} {x : α} (h : t.scalar? = some x) :
    t.IsNumber x := by
  cases t with
  | integer n =>
    obtain rfl := Option.some.inj h
    exact .integer n
  | real view =>
    obtain rfl := Option.some.inj h
    exact .real view
  | _ => cases h

theorem isVoid_of_isEmpty {t : Toml} (h : t.isEmpty = true) : t.IsVoid := by
  cases t with
  | table origin entries =>
    obtain rfl := List.isEmpty_iff.mp h
    exact .table origin
  | list items =>
    obtain rfl := List.isEmpty_iff.mp h
    exact .list
  | tables items =>
    obtain rfl := List.isEmpty_iff.mp h
    exact .tables
  | _ => cases h

theorem isPolicy_of_zeroVariance? [Numeral α] {t : Toml} {policy : ZeroVariance}
    (h : (view (α := α)).zeroVariance? t = some policy) : t.IsPolicy policy := by
  obtain ⟨name, hname, hpolicy⟩ := Option.bind_eq_some_iff.mp h
  rw [ZeroVariance.ofName?] at hpolicy
  obtain rfl : policy.name = name := by simpa using List.find?_some hpolicy
  have hname : choice? t = some policy.name := hname
  rw [choice?.eq_def] at hname
  split at hname
  · rename_i name
    obtain rfl := Option.some.inj hname
    exact .text policy
  · rename_i name value
    rw [Option.ite_none_right_eq_some] at hname
    obtain ⟨hempty, hname⟩ := hname
    obtain rfl := Option.some.inj hname
    exact .key policy _ (isVoid_of_isEmpty hempty)
  · cases hname

end Toml

/-! ### Entries of settings -/

/-- The sections of settings with the names of their entries, in the order that lists have. -/
def Settings.layout : List (String × List String) :=
  [("model", ["n_estimators", "max_samples", "random_seed", "n_jobs"]),
    ("training",
      ["default_contamination", "min_training_samples", "fallback_dataset", "zero_variance"]),
    ("storage", ["persist", "model_path", "scaler_path"]),
    ("logging", ["level"])]

namespace Toml

/-- The entry of a name, in a table or in the list of the entries that have the given names. -/
def entryOf? (names : List String) (name : String) : Toml → Option Toml
  | .table _ entries => entries.lookup name
  | .list items => items[names.idxOf name]?
  | .tables items => items[names.idxOf name]?
  | _ => none

/-- What a document says about a setting. -/
def setting? (document : Toml) (part key : String) : Option Toml :=
  (document.entryOf? (Settings.layout.map (·.1)) part).bind
    (entryOf? ((Settings.layout.lookup part).getD []) key)

theorem map_getElem?_range {names : List String} (hnodup : names.Nodup) (items : List Toml) :
    (List.range names.length).map (items[·]?) = names.map fun name ↦ items[names.idxOf name]? := by
  refine List.ext_getElem (by simp) fun i hi hi' ↦ ?_
  rw [List.length_map] at hi'
  simp [hnodup.idxOf_getElem i hi']

/-- The fields that are read from a document are its entries one by one. -/
theorem eq_map_of_fields? {names : List String} (hnodup : names.Nodup) {t : Toml}
    {fields : List (Option Toml)} (h : fields? names t = some fields) :
    fields = names.map (t.entryOf? names ·) := by
  cases t with
  | table _ entries => exact (Option.some.inj h).symm
  | list items => exact (Option.some.inj h).symm.trans (map_getElem?_range hnodup items)
  | tables items => exact (Option.some.inj h).symm.trans (map_getElem?_range hnodup items)
  | moment => exact (Option.some.inj h).symm
  | text s => cases h
  | integer n => cases h
  | real x => cases h
  | bool b => cases h

end Toml

variable [Scalar α] [Numeral α]

namespace Settings

/-- The settings are those of a document, with the default value for each one that has no entry. -/
structure IsRead (document : Toml) (s : Settings α) : Prop where
  estimators : Supplied Toml.IsNat 100 (document.setting? "model" "n_estimators") s.model.estimators
  sampleLimit : Supplied Toml.IsNat 256 (document.setting? "model" "max_samples")
    s.model.sampleLimit
  randomSeed : Supplied Toml.IsNat 42 (document.setting? "model" "random_seed") s.model.randomSeed
  workers : Supplied Toml.IsSomeNat none (document.setting? "model" "n_jobs") s.model.workers
  contamination : Supplied Toml.IsNumber defaultContamination
    (document.setting? "training" "default_contamination") s.training.contamination
  minTrainingSamples : Supplied Toml.IsNat 10
    (document.setting? "training" "min_training_samples") s.training.minTrainingSamples
  fallbackDataset : Supplied Toml.IsText "data/fallback.csv"
    (document.setting? "training" "fallback_dataset") s.training.fallbackDataset
  zeroVariance : Supplied Toml.IsPolicy .unitScale
    (document.setting? "training" "zero_variance") s.training.zeroVariance
  persist : Supplied Toml.IsBool true (document.setting? "storage" "persist") s.storage.persist
  modelPath : Supplied Toml.IsText "models/anomaly_model.json"
    (document.setting? "storage" "model_path") s.storage.modelPath
  scalerPath : Supplied Toml.IsText "models/scaler.json"
    (document.setting? "storage" "scaler_path") s.storage.scalerPath
  level : Supplied Toml.IsText "info" (document.setting? "logging" "level") s.logging.level

end Settings

/-! ### Sections -/

namespace Toml

variable {t : Toml}

omit [Scalar α] in
theorem supplied_of_model? {m : ModelSettings} (h : (view (α := α)).model? t = some m) :
    let entryOf? key := t.entryOf? ["n_estimators", "max_samples", "random_seed", "n_jobs"] key
    Supplied IsNat 100 (entryOf? "n_estimators") m.estimators ∧
      Supplied IsNat 256 (entryOf? "max_samples") m.sampleLimit ∧
      Supplied IsNat 42 (entryOf? "random_seed") m.randomSeed ∧
      Supplied IsSomeNat none (entryOf? "n_jobs") m.workers := by
  obtain ⟨fields, hfields, h⟩ := Option.bind_eq_some_iff.mp h
  obtain rfl := eq_map_of_fields? (by decide) hfields
  obtain ⟨_, hestimators, h⟩ := Option.bind_eq_some_iff.mp h
  obtain ⟨_, hlimit, h⟩ := Option.bind_eq_some_iff.mp h
  obtain ⟨_, hseed, h⟩ := Option.bind_eq_some_iff.mp h
  obtain ⟨_, hworkers, h⟩ := Option.bind_eq_some_iff.mp h
  obtain rfl := Option.some.inj h
  exact ⟨supplied_of_field isNat_of_nat? hestimators, supplied_of_field isNat_of_nat? hlimit,
    supplied_of_field isNat_of_nat? hseed, supplied_of_field isSomeNat_of_optionalNat? hworkers⟩

theorem supplied_of_training? {training : TrainingSettings α}
    (h : view.training? t = some training) :
    let entryOf? key := t.entryOf?
      ["default_contamination", "min_training_samples", "fallback_dataset", "zero_variance"] key
    Supplied IsNumber defaultContamination (entryOf? "default_contamination")
        training.contamination ∧
      Supplied IsNat 10 (entryOf? "min_training_samples") training.minTrainingSamples ∧
      Supplied IsText "data/fallback.csv" (entryOf? "fallback_dataset")
        training.fallbackDataset ∧
      Supplied IsPolicy .unitScale (entryOf? "zero_variance")
        training.zeroVariance := by
  obtain ⟨fields, hfields, h⟩ := Option.bind_eq_some_iff.mp h
  obtain rfl := eq_map_of_fields? (by decide) hfields
  obtain ⟨_, hcontamination, h⟩ := Option.bind_eq_some_iff.mp h
  obtain ⟨_, hsamples, h⟩ := Option.bind_eq_some_iff.mp h
  obtain ⟨_, hdataset, h⟩ := Option.bind_eq_some_iff.mp h
  obtain ⟨_, hpolicy, h⟩ := Option.bind_eq_some_iff.mp h
  obtain rfl := Option.some.inj h
  exact ⟨supplied_of_field isNumber_of_scalar? hcontamination,
    supplied_of_field isNat_of_nat? hsamples, supplied_of_field isText_of_text? hdataset,
    supplied_of_field isPolicy_of_zeroVariance? hpolicy⟩

omit [Scalar α] in
theorem supplied_of_storage? {storage : StorageSettings}
    (h : (view (α := α)).storage? t = some storage) :
    let entryOf? key := t.entryOf? ["persist", "model_path", "scaler_path"] key
    Supplied IsBool true (entryOf? "persist") storage.persist ∧
      Supplied IsText "models/anomaly_model.json" (entryOf? "model_path")
        storage.modelPath ∧
      Supplied IsText "models/scaler.json" (entryOf? "scaler_path")
        storage.scalerPath := by
  obtain ⟨fields, hfields, h⟩ := Option.bind_eq_some_iff.mp h
  obtain rfl := eq_map_of_fields? (by decide) hfields
  obtain ⟨_, hpersist, h⟩ := Option.bind_eq_some_iff.mp h
  obtain ⟨_, hmodel, h⟩ := Option.bind_eq_some_iff.mp h
  obtain ⟨_, hscaler, h⟩ := Option.bind_eq_some_iff.mp h
  obtain rfl := Option.some.inj h
  exact ⟨supplied_of_field isBool_of_bool? hpersist, supplied_of_field isText_of_text? hmodel,
    supplied_of_field isText_of_text? hscaler⟩

omit [Scalar α] in
theorem supplied_of_logging? {logging : LoggingSettings}
    (h : (view (α := α)).logging? t = some logging) :
    Supplied IsText "info" (t.entryOf? ["level"] "level") logging.level := by
  obtain ⟨fields, hfields, h⟩ := Option.bind_eq_some_iff.mp h
  obtain rfl := eq_map_of_fields? (by decide) hfields
  obtain ⟨_, hlevel, h⟩ := Option.bind_eq_some_iff.mp h
  obtain rfl := Option.some.inj h
  exact supplied_of_field isText_of_text? hlevel

omit [Scalar α] [Numeral α] in
/-- An entry of a section is supplied by the document as it is by the section, and by default where
there is no such section. -/
theorem supplied_setting {γ : Type} {document : Toml} {part key : String}
    {readPart : Toml → Option γ} {defaultPart m : γ}
    (hpart : DocumentView.field readPart defaultPart
      (document.entryOf? (Settings.layout.map (·.1)) part) = some m)
    {meaning : Toml → β → Prop} (get : γ → β)
    (hentry : ∀ t, readPart t = some m →
      Supplied meaning (get defaultPart) (t.entryOf? ((Settings.layout.lookup part).getD []) key)
        (get m)) :
    Supplied meaning (get defaultPart) (document.setting? part key) (get m) := by
  rcases hfound : document.entryOf? (Settings.layout.map (·.1)) part with _ | t
  · rw [hfound] at hpart
    rw [setting?, hfound]
    obtain rfl := Option.some.inj hpart
    exact .absent
  · rw [hfound] at hpart
    rw [setting?, hfound]
    exact hentry t hpart

end Toml

namespace Settings

/-- Whatever settings are read from a document are those that it describes entry by entry. -/
theorem isRead_of_settings? {document : Toml} {s : Settings α}
    (h : Toml.view.settings? document = some s) : s.IsRead document := by
  obtain ⟨fields, hfields, h⟩ := Option.bind_eq_some_iff.mp h
  obtain rfl := Toml.eq_map_of_fields? (by decide) hfields
  obtain ⟨_, hmodel, h⟩ := Option.bind_eq_some_iff.mp h
  obtain ⟨_, htraining, h⟩ := Option.bind_eq_some_iff.mp h
  obtain ⟨_, hstorage, h⟩ := Option.bind_eq_some_iff.mp h
  obtain ⟨_, hlogging, h⟩ := Option.bind_eq_some_iff.mp h
  obtain rfl := Option.some.inj h
  exact {
    estimators := Toml.supplied_setting hmodel (·.estimators)
      fun _ ht ↦ (Toml.supplied_of_model? ht).1
    sampleLimit := Toml.supplied_setting hmodel (·.sampleLimit)
      fun _ ht ↦ (Toml.supplied_of_model? ht).2.1
    randomSeed := Toml.supplied_setting hmodel (·.randomSeed)
      fun _ ht ↦ (Toml.supplied_of_model? ht).2.2.1
    workers := Toml.supplied_setting hmodel (·.workers)
      fun _ ht ↦ (Toml.supplied_of_model? ht).2.2.2
    contamination := Toml.supplied_setting htraining (·.contamination)
      fun _ ht ↦ (Toml.supplied_of_training? ht).1
    minTrainingSamples := Toml.supplied_setting htraining (·.minTrainingSamples)
      fun _ ht ↦ (Toml.supplied_of_training? ht).2.1
    fallbackDataset := Toml.supplied_setting htraining (·.fallbackDataset)
      fun _ ht ↦ (Toml.supplied_of_training? ht).2.2.1
    zeroVariance := Toml.supplied_setting htraining (·.zeroVariance)
      fun _ ht ↦ (Toml.supplied_of_training? ht).2.2.2
    persist := Toml.supplied_setting hstorage (·.persist)
      fun _ ht ↦ (Toml.supplied_of_storage? ht).1
    modelPath := Toml.supplied_setting hstorage (·.modelPath)
      fun _ ht ↦ (Toml.supplied_of_storage? ht).2.1
    scalerPath := Toml.supplied_setting hstorage (·.scalerPath)
      fun _ ht ↦ (Toml.supplied_of_storage? ht).2.2
    level := Toml.supplied_setting hlogging (·.level) fun _ ht ↦ Toml.supplied_of_logging? ht }

/-! ### Files -/

theorem exists_of_ofText_eq_ok {text : String} {s : Settings α} (h : ofText text = .ok s) :
    ∃ entries, Toml.parse? text = some entries ∧ s.IsRead (.table .header entries) := by
  rw [ofText] at h
  rcases hread : (ofText? text : Option (Settings α)) with _ | found
  · rw [hread] at h
    cases h
  · rw [hread] at h
    obtain rfl := Except.ok.inj h
    obtain ⟨entries, hparse, hsettings⟩ := Option.bind_eq_some_iff.mp hread
    exact ⟨entries, hparse, isRead_of_settings? hsettings⟩

omit [Scalar α] in
theorem isOverridden_of_overridden {env : Environment} {s s' : Settings α}
    (h : s.overridden env = .ok s') : s.IsOverridden env s' := by
  rw [overridden] at h
  rcases hrun : s.override env with ⟨fault | _, made⟩
  · rw [hrun] at h
    cases h
  · rw [hrun] at h
    obtain rfl := Except.ok.inj h
    exact override_eq_ok_iff.mp hrun

/-- Settings that are loaded are valid, and made of their layers. -/
theorem load_layers {tree : Files.Tree} {env : Environment} {path : String} {s : Settings α}
    (h : load tree env path = .ok s) :
    s.validate = .ok () ∧ ∃ (text : String) (entries : Toml.Entries) (s₀ : Settings α),
      tree.readText (Files.Path.ofText path) = .ok text ∧ Toml.parse? text = some entries ∧
      s₀.IsRead (.table .header entries) ∧ s₀.IsOverridden env s := by
  rw [load] at h
  rcases htext : tree.readText (Files.Path.ofText path) with fault | text
  · rw [htext] at h
    cases h
  rw [htext] at h
  obtain ⟨s₀, hread, h⟩ := Outcome.exists_of_bind_eq_ok h
  obtain ⟨s₁, hoverridden, h⟩ := Outcome.exists_of_bind_eq_ok h
  obtain ⟨_, hvalid, h⟩ := Outcome.exists_of_bind_eq_ok h
  obtain rfl := Except.ok.inj h
  obtain ⟨entries, hparse, hentries⟩ := exists_of_ofText_eq_ok hread
  exact ⟨hvalid, text, entries, s₀, rfl, hparse, hentries, isOverridden_of_overridden hoverridden⟩

/-- Settings that are loaded are valid; each of them is what its variable says if that is set, else
what the file says about it, else its default value, and the settings without a variable do not
depend on the environment. Overrides of any settings fail exactly if a variable is set that cannot
be read, and name the first such variable; those before it have been made and no others. Overrides
that could be made change nothing when they are made again. -/
theorem layers_of_settings (env : Environment) :
    (∀ (tree : Files.Tree) (path : String) (s : Settings α), load tree env path = .ok s →
      s.validate = .ok () ∧ ∃ (text : String) (entries : Toml.Entries) (s₀ : Settings α),
        tree.readText (Files.Path.ofText path) = .ok text ∧ Toml.parse? text = some entries ∧
        s₀.IsRead (.table .header entries) ∧ s₀.IsOverridden env s) ∧
    ∀ s : Settings α,
      ((∃ fault s', s.override env = (.error fault, s')) ↔
        ∃ (source : ParsedVariable) (value : String), env source.name = some value ∧
          ¬source.Reads α value) ∧
      (∀ fault s', s.override env = (.error fault, s') →
        ∃ (source : ParsedVariable) (value reason : String), fault = .badVariable source value ∧
          fault.message = source.name ++ reason ∧
          env source.name = some value ∧ ¬source.Reads α value ∧
          (∀ earlier : ParsedVariable,
            earlier.name ∈ Override.names.takeWhile (· ≠ source.name) →
            ∀ other, env earlier.name = some other → earlier.Reads α other) ∧
          s.IsOverridden (env.before source) s') ∧
      ∀ s', s.override env = (.ok (), s') →
        s.IsOverridden env s' ∧ s'.override env = (.ok (), s') := by
  refine ⟨fun _ _ _ ↦ load_layers, fun s ↦ ⟨override_fails_iff, ?_, ?_⟩⟩
  · intro fault s' h
    obtain ⟨source, value, rfl, hset, hbad, hbefore⟩ := exists_of_override_eq_error h
    exact ⟨source, value, _, rfl, String.append_assoc .., hset, hbad,
      fun _ hearlier _ ↦ hbefore.reads_before hearlier, hbefore⟩
  · intro s' h
    exact ⟨override_eq_ok_iff.mp h, override_again h⟩

/-- A file with three entries. -/
def threeEntries : Files.Tree :=
  ⟨[(["engine.toml"],
    .file "[model]\nn_estimators = 7\nrandom_seed = 5\n[storage]\npersist = false\n".toUTF8)]⟩

/-- An environment with four variables. -/
def fourVariables (seed : String) : Environment
  | "ANOMALY_CONTAMINATION" => some " +2.5e-1"
  | "ANOMALY_RANDOM_SEED" => some seed
  | "ANOMALY_PERSIST" => some "true\n"
  | "ANOMALY_LOG_LEVEL" => some "debug"
  | _ => none

/-- One entry of the file is used and two are overridden, and so are the default values of two
settings that have no entries. The overrides can be made again. If the seed is negative, then the
overrides stop at it: the contamination has been overridden, and the level has not. -/
theorem layers_of_settings_four : ∃ s : Settings Float,
    load threeEntries (fourVariables "043") "engine.toml" = .ok s ∧
    (s.model.estimators = 7 ∧ s.model.sampleLimit = 256 ∧ s.model.randomSeed = 43 ∧
      s.training.contamination = 0.25 ∧ s.storage.persist = true ∧ s.logging.level = "debug") ∧
    s.validate = .ok () ∧ s.override (fourVariables "043") = (.ok (), s) ∧
    ∃ s', (Settings.default : Settings Float).override (fourVariables "-1") =
        (.error (.badVariable .randomSeed "-1"), s') ∧
      Settings.default.IsOverridden ((fourVariables "-1").before .randomSeed) s' ∧
      s'.training.contamination = 0.25 ∧ s'.logging.level = "info" := by
  have hloaded : ((load threeEntries (fourVariables "043") "engine.toml").toOption.any
      fun s : Settings Float ↦ s.model.estimators = 7 ∧ s.model.sampleLimit = 256 ∧
        s.model.randomSeed = 43 ∧ s.training.contamination = 0.25 ∧ s.storage.persist = true ∧
        s.logging.level = "debug") = true := by
    decide +kernel
  rcases hload : (load threeEntries (fourVariables "043") "engine.toml" :
    Except _ (Settings Float)) with fault | s
  · rw [hload] at hloaded
    cases hloaded
  rw [hload] at hloaded
  obtain ⟨hfiles, hsettings⟩ := layers_of_settings (α := Float) (fourVariables "043")
  obtain ⟨hvalid, text, entries, s₀, -, -, -, hmade⟩ := hfiles _ _ s hload
  obtain ⟨-, -, hagain⟩ := hsettings s₀
  refine ⟨s, rfl, of_decide_eq_true hloaded, hvalid,
    (hagain s (override_eq_ok_iff.mpr hmade)).2, ?_⟩
  obtain ⟨-, hsettings'⟩ := layers_of_settings (α := Float) (fourVariables "-1")
  obtain ⟨hfails, hfirst, -⟩ := hsettings' Settings.default
  have hnegative : ¬ParsedVariable.Reads Float .randomSeed "-1" := by
    rintro ⟨n, hn⟩
    have hnone : readBounded? (Text.trim "-1") = none := by decide
    cases hnone.symm.trans (Override.means_count_iff.mp hn)
  have hquarter : ParsedVariable.Reads Float .contamination " +2.5e-1" := by
    have hsome : (Numeral.read? (Text.trim " +2.5e-1") : Option Float).isSome = true := by
      decide +kernel
    obtain ⟨x, hx⟩ := Option.isSome_iff_exists.mp hsome
    exact ⟨x, Override.means_number_iff.mpr hx⟩
  obtain ⟨fault, s', hrun⟩ := hfails.mpr ⟨.randomSeed, "-1", rfl, hnegative⟩
  obtain ⟨source, value, _, rfl, -, hset, hbad, hearlier, hbefore⟩ := hfirst _ _ hrun
  cases source with
  | contamination =>
    obtain rfl := Option.some.inj hset
    exact absurd hquarter hbad
  | randomSeed =>
    obtain rfl := Option.some.inj hset
    have hstopped : let made := ((Settings.default : Settings Float).override
        (fourVariables "-1")).2
        made.training.contamination = 0.25 ∧ made.logging.level = "info" := by
      decide +kernel
    rw [hrun] at hstopped
    exact ⟨s', hrun, hbefore, hstopped⟩
  | persist => exact absurd (hearlier .randomSeed (by decide) "-1" rfl) hnegative

end Settings

end OutlierScoring
