import OutlierScoring.Proofs.Number.Floats
import OutlierScoring.Proofs.Toml.Tables

/-!
# Settings are read back from their text

The text of settings is parsed to the tables of their sections, and a field of a table is read as
the setting that it was written for (`field_lookup`). This holds for every string and every float,
and it holds for each field by itself: where entries or whole sections are left out of the text, the
settings that were written in them have their default values, and all others stay what they were
(`Settings.keeping`, `Settings.ofText_write`).
-/

namespace OutlierScoring

open Toml

namespace Toml

theorem nat?_reread (n : Nat) : nat? (reread (.integer n)) = some n := by
  simp [reread, nat?]

/-- The shortest decimal of a float is read as the float, with or without a zero after its point. -/
theorem ofDecimal_pointed {x : Float} (h : x.isFinite = true) :
    Binary64.ofDecimal (Shortest.decimal x).trim.pointed = x :=
  Binary64.ofDecimal_of_trim_eq h (by rw [Decimal.trim_pointed, Decimal.trim_trim])

theorem view_of_isFinite {x : Float} (h : x.isFinite = true) :
    Numeral.view x = .finite (Shortest.decimal x) := by
  rw [Binary64.view_eq, if_pos h]

/-- A number in a document stands for the float that it was written for. -/
theorem scalar?_reread (x : Float) : scalar? (reread (.real (Numeral.view x))) = some x := by
  rcases hfinite : x.isFinite
  · have hview := Binary64.ofView_of_not_isFinite hfinite
    rw [Binary64.view_eq, hfinite] at hview ⊢
    cases hnan : x.isNaN
    all_goals
      rw [hnan] at hview
      exact congrArg some hview
  · rw [view_of_isFinite hfinite]
    exact congrArg some (ofDecimal_pointed hfinite)

/-- A float is in the range of floats. -/
theorem isScalar_view (x : Float) : (Toml.real (Numeral.view x)).IsScalar := by
  rcases hfinite : x.isFinite
  · rw [Binary64.view_eq, hfinite]
    cases x.isNaN <;> exact trivial
  · rw [view_of_isFinite hfinite]
    show boundedReal? _ = _
    rw [boundedReal?, ofDecimal_pointed hfinite, hfinite]
    simp

end Toml

/-- What is read for a setting: its default value where its section or its entry was left out. -/
def Toml.Selection.pick {β : Type} (kept : Selection) (name key : String) (b default : β) : β :=
  if kept.keepsSection name && kept.keepsEntry name key then b else default

namespace Settings

/-- The settings with default values for all that was left out of their text. -/
def keeping {α : Type} [Scalar α] (kept : Selection) (s : Settings α) : Settings α :=
  let d : Settings α := default
  { model :=
      { estimators := kept.pick "model" "n_estimators" s.model.estimators d.model.estimators
        sampleLimit := kept.pick "model" "max_samples" s.model.sampleLimit d.model.sampleLimit
        randomSeed := kept.pick "model" "random_seed" s.model.randomSeed d.model.randomSeed
        workers := kept.pick "model" "n_jobs" s.model.workers d.model.workers }
    training :=
      { contamination :=
          kept.pick "training" "default_contamination" s.training.contamination
            d.training.contamination
        minTrainingSamples :=
          kept.pick "training" "min_training_samples" s.training.minTrainingSamples
            d.training.minTrainingSamples
        fallbackDataset :=
          kept.pick "training" "fallback_dataset" s.training.fallbackDataset
            d.training.fallbackDataset
        zeroVariance :=
          kept.pick "training" "zero_variance" s.training.zeroVariance d.training.zeroVariance }
    storage :=
      { persist := kept.pick "storage" "persist" s.storage.persist d.storage.persist
        modelPath := kept.pick "storage" "model_path" s.storage.modelPath d.storage.modelPath
        scalerPath := kept.pick "storage" "scaler_path" s.storage.scalerPath d.storage.scalerPath }
    logging := { level := kept.pick "logging" "level" s.logging.level d.logging.level } }

end Settings

/-! ### Fields and sections -/

theorem bind_eq_some {β γ : Type} {x : Option β} {f : β → Option γ} {b : β} {c : γ}
    (hx : x = some b) (hf : f b = some c) : x >>= f = some c := by
  rw [hx]
  exact hf

section Fields

variable {β : Type} {read : Toml → Option β} {b default : β} {kept : Selection} {name : String}
  {entries : Entries}

/-- A field whose section was not left out. -/
theorem field_lookup (hkept : kept.keepsSection name = true) {key : String} {v : Toml}
    (hv : entries.lookup key = some v) (hread : read v.reread = some b) :
    DocumentView.field read default ((kept.entriesOf name entries).lookup key) =
      some (kept.pick name key b default) := by
  rw [lookup_entriesOf, hv, Selection.pick, hkept, Bool.true_and]
  split
  · exact hread
  · rfl

/-- A field that has no entry has its default value. -/
theorem field_lookup_none {key : String} (hv : entries.lookup key = none) :
    DocumentView.field read default ((kept.entriesOf name entries).lookup key) =
      some (kept.pick name key default default) := by
  rw [lookup_entriesOf, hv, Selection.pick, ite_self, Option.map_none, ite_self]
  rfl

/-- A section, which has its default value where it was left out. -/
theorem field_select (entries : Entries) {parts : List (String × Entries)}
    (hname : parts.lookup name = some entries)
    (hread : kept.keepsSection name = true →
      read (.table .header (kept.entriesOf name entries)) = some b)
    (hdefault : kept.keepsSection name = false → default = b) :
    DocumentView.field read default (((kept.select parts).map tableOf).lookup name) = some b := by
  rw [lookup_select, hname]
  split
  · rename_i hkept
    exact hread hkept
  · rename_i hkept
    exact congrArg some (hdefault (Bool.eq_false_iff.mpr hkept))

end Fields

namespace Settings

/-- The entries of a section of the text. -/
def entries (s : Settings Float) (name : String) : Entries := (s.sections.lookup name).getD []

variable (kept : Selection) (s : Settings Float)

theorem field_model :
    DocumentView.field (Toml.view (α := Float)).model? (default : Settings Float).model
      (((kept.select s.sections).map tableOf).lookup "model") = some (s.keeping kept).model := by
  refine field_select (s.entries "model") rfl (fun hkept ↦ ?_) fun hkept ↦ ?_
  · have hentry : (s.entries "model").lookup "n_jobs" = s.model.workers.map (.integer ·) := by
      show List.lookup "n_jobs" (_ ++ s.model.workers.toList.map _) = _
      cases s.model.workers <;> rfl
    have hworkers :
        DocumentView.field (Toml.view (α := Float)).optionalNat? none
          ((kept.entriesOf "model" (s.entries "model")).lookup "n_jobs") =
            some (kept.pick "model" "n_jobs" s.model.workers none) := by
      rcases hworkers : s.model.workers with _ | n
      all_goals rw [hworkers] at hentry
      · exact field_lookup_none hentry
      · exact field_lookup hkept hentry (congrArg (Option.map some) (nat?_reread n))
    refine bind_eq_some rfl ?_
    refine bind_eq_some (field_lookup hkept rfl (nat?_reread _)) ?_
    refine bind_eq_some (field_lookup hkept rfl (nat?_reread _)) ?_
    refine bind_eq_some (field_lookup hkept rfl (nat?_reread _)) ?_
    exact bind_eq_some hworkers rfl
  · simp [keeping, Selection.pick, hkept]

theorem field_training :
    DocumentView.field (Toml.view (α := Float)).training? (default : Settings Float).training
      (((kept.select s.sections).map tableOf).lookup "training") =
        some (s.keeping kept).training := by
  refine field_select (s.entries "training") rfl (fun hkept ↦ ?_) fun hkept ↦ ?_
  · have hpolicy : (Toml.view (α := Float)).zeroVariance?
        (reread (.text s.training.zeroVariance.name)) = some s.training.zeroVariance := by
      cases s.training.zeroVariance <;> rfl
    refine bind_eq_some rfl ?_
    refine bind_eq_some (field_lookup hkept rfl (scalar?_reread _)) ?_
    refine bind_eq_some (field_lookup hkept rfl (nat?_reread _)) ?_
    refine bind_eq_some (field_lookup hkept rfl rfl) ?_
    exact bind_eq_some (field_lookup hkept rfl hpolicy) rfl
  · simp [keeping, Selection.pick, hkept]

theorem field_storage :
    DocumentView.field (Toml.view (α := Float)).storage? (default : Settings Float).storage
      (((kept.select s.sections).map tableOf).lookup "storage") =
        some (s.keeping kept).storage := by
  refine field_select (s.entries "storage") rfl (fun hkept ↦ ?_) fun hkept ↦ ?_
  · refine bind_eq_some rfl ?_
    refine bind_eq_some (field_lookup hkept rfl rfl) ?_
    refine bind_eq_some (field_lookup hkept rfl rfl) ?_
    exact bind_eq_some (field_lookup hkept rfl rfl) rfl
  · simp [keeping, Selection.pick, hkept]

theorem field_logging :
    DocumentView.field (Toml.view (α := Float)).logging? (default : Settings Float).logging
      (((kept.select s.sections).map tableOf).lookup "logging") =
        some (s.keeping kept).logging := by
  refine field_select (s.entries "logging") rfl (fun hkept ↦ ?_) fun hkept ↦ ?_
  · refine bind_eq_some rfl ?_
    exact bind_eq_some (field_lookup hkept rfl rfl) rfl
  · simp [keeping, Selection.pick, hkept]

/-- What is left of the tables of settings is read as what is left of the settings. -/
theorem settings?_select :
    Toml.view.settings? (.table .header ((kept.select s.sections).map tableOf)) =
      some (s.keeping kept) := by
  refine bind_eq_some rfl ?_
  refine bind_eq_some (field_model kept s) ?_
  refine bind_eq_some (field_training kept s) ?_
  refine bind_eq_some (field_storage kept s) ?_
  exact bind_eq_some (field_logging kept s) rfl

@[simp]
theorem keeping_all : s.keeping .all = s := rfl

/-! ### Texts -/

theorem isBounded_iff (n : Nat) : isBounded n = true ↔ n ≤ 2 ^ 63 - 1 := by
  have hmin : Int64.minValue.toInt = -2 ^ 63 := by decide
  have hmax : Int64.maxValue.toInt = 2 ^ 63 - 1 := by decide
  rw [isBounded, decide_eq_true_iff, hmin, hmax]
  omega

section Writable

variable {s : Settings Float} (h : ∀ n ∈ s.wholeNumbers, n ≤ 2 ^ 63 - 1)

include h

theorem isScalar_integer {n : Nat} (hn : n ∈ s.wholeNumbers) : (Toml.integer n).IsScalar :=
  (isBounded_iff n).mpr (h n hn)

theorem isWritable_model : Entries.IsWritable (s.entries "model") := by
  have hestimators := isScalar_integer h (n := s.model.estimators) (by simp [wholeNumbers])
  have hsamples := isScalar_integer h (n := s.model.sampleLimit) (by simp [wholeNumbers])
  have hseed := isScalar_integer h (n := s.model.randomSeed) (by simp [wholeNumbers])
  show Entries.IsWritable ([_, _, _] ++ s.model.workers.toList.map _)
  rcases hworkers : s.model.workers with _ | n
  · exact .of_keys ["n_estimators", "max_samples", "random_seed"] rfl (by decide)
      (by simpa using ⟨hestimators, hsamples, hseed⟩)
  · have hn := isScalar_integer h (n := n) (by simp [wholeNumbers, hworkers])
    exact .of_keys ["n_estimators", "max_samples", "random_seed", "n_jobs"] rfl (by decide)
      (by simpa using ⟨hestimators, hsamples, hseed, hn⟩)

theorem isWritable_training : Entries.IsWritable (s.entries "training") := by
  have hcontamination := isScalar_view s.training.contamination
  have hsamples := isScalar_integer h (n := s.training.minTrainingSamples) (by simp [wholeNumbers])
  show Entries.IsWritable [_, _, _, _]
  exact .of_keys
    ["default_contamination", "min_training_samples", "fallback_dataset", "zero_variance"] rfl
    (by decide) (by simpa using ⟨hcontamination, hsamples⟩)

omit h in
theorem isWritable_storage : Entries.IsWritable (s.entries "storage") := by
  show Entries.IsWritable [_, _, _]
  exact .of_keys ["persist", "model_path", "scaler_path"] rfl (by decide) (by simp)

omit h in
theorem isWritable_logging : Entries.IsWritable (s.entries "logging") := by
  show Entries.IsWritable [_]
  exact .of_keys ["level"] rfl (by decide) (by simp)

/-- The sections of settings can be written and read if their numbers are in range. -/
theorem isWritable_sections : IsWritable s.sections where
  isBareKey := (by decide : ∀ name ∈ ["model", "training", "storage", "logging"], IsBareKey name)
  entries := by
    show ∀ part ∈ [("model", s.entries "model"), ("training", s.entries "training"),
      ("storage", s.entries "storage"), ("logging", s.entries "logging")], _
    simp only [List.forall_mem_cons]
    exact ⟨isWritable_model h, isWritable_training h, isWritable_storage, isWritable_logging, nofun⟩
  nodup := (by decide : ["model", "training", "storage", "logging"].Nodup)

end Writable

theorem toText_of_le (h : ∀ n ∈ s.wholeNumbers, n ≤ 2 ^ 63 - 1) :
    s.toText = .ok (Selection.all.write s.sections) := by
  have hall : s.wholeNumbers.all (isBounded ·) = true :=
    List.all_eq_true.mpr fun n hn ↦ (isBounded_iff n).mpr (h n hn)
  rw [toText, toText?, if_pos hall, Selection.write_all]

theorem toText_of_lt {n : Nat} (hn : n ∈ s.wholeNumbers) (h : 2 ^ 63 - 1 < n) :
    s.toText = .error .unwritable := by
  have hall : ¬s.wholeNumbers.all (isBounded ·) = true := fun hall ↦
    Nat.not_le.mpr h ((isBounded_iff n).mp (List.all_eq_true.mp hall n hn))
  rw [toText, toText?, if_neg hall]

/-- What is left of the text of settings is read as what is left of the settings. -/
theorem ofText_write (h : ∀ n ∈ s.wholeNumbers, n ≤ 2 ^ 63 - 1) :
    ofText (kept.write s.sections) = .ok (s.keeping kept) := by
  rw [ofText, ofText?, parse?_write kept (isWritable_sections h)]
  simp only [Option.bind_some, settings?_select]

/-- Settings have a text exactly if their numbers are in range, and the text is read as the settings
that it was written for. Where some of its sections, entries and empty lines are left out, it is
read as the same settings with default values for what was left out. -/
theorem texts_are_read_back :
    ((∃ fault, s.toText = .error fault) ↔ ∃ n ∈ s.wholeNumbers, 2 ^ 63 - 1 < n) ∧
    ((∀ n ∈ s.wholeNumbers, n ≤ 2 ^ 63 - 1) →
      s.toText = .ok (Selection.all.write s.sections) ∧
      ofText (Selection.all.write s.sections) = .ok s ∧
      ∀ kept : Selection, ofText (kept.write s.sections) = .ok (s.keeping kept)) := by
  refine ⟨⟨?_, ?_⟩, fun h ↦ ⟨toText_of_le s h, ?_, fun kept ↦ ofText_write kept s h⟩⟩
  · rintro ⟨fault, hfault⟩
    by_contra hnone
    have hle : ∀ n ∈ s.wholeNumbers, n ≤ 2 ^ 63 - 1 := fun n hn ↦
      Nat.not_lt.mp fun hlt ↦ hnone ⟨n, hn, hlt⟩
    rw [toText_of_le s hle] at hfault
    cases hfault
  · rintro ⟨n, hn, hlt⟩
    exact ⟨_, toText_of_lt s hn hlt⟩
  · rw [ofText_write .all s h, keeping_all]

/-- Of a text with a single entry that setting is read, and the default values of all others. -/
theorem texts_are_read_back_oneEntry :
    ofText "[model]\nn_estimators = 7\n" =
      .ok { (default : Settings Float) with model := { estimators := 7 } } := by
  let s : Settings Float := { (default : Settings Float) with model := { estimators := 7 } }
  let kept : Selection := ⟨(· == "model"), fun _ key ↦ key == "n_estimators", fun _ ↦ false⟩
  have htext : kept.write s.sections = "[model]\nn_estimators = 7\n" := by decide +kernel
  have hread := ((texts_are_read_back s).2 (by decide)).2.2 kept
  rwa [htext, show s.keeping kept = s from rfl] at hread

end Settings

end OutlierScoring
