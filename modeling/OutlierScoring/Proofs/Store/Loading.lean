import OutlierScoring.Proofs.Forest.Forms
import OutlierScoring.Proofs.Number.Floats
import OutlierScoring.Proofs.Statistics
import OutlierScoring.Proofs.Store.Replacing
import OutlierScoring.Proofs.Time.Instants

/-!
# Loading what was saved

After a save that succeeded a load gives the saved state, except for three reasons, each of which
makes it fail (`load_after_save`): both paths lead to one place, so that the model took the place of
the statistics; a number is not finite and has no text; or a tree is higher than a reader goes down.
A save does not look at any of them.
-/

namespace OutlierScoring

namespace Store

open Files

variable {α β M : Type}

/-! ### Contents of files -/

theorem fromUTF8?_toUTF8 (text : String) : String.fromUTF8? text.toUTF8 = some text := by
  rw [String.fromUTF8?, String.toUTF8_eq_toByteArray, dif_pos text.isValidUTF8]
  rfl

section Contents

variable [Json.Form β] {b : β} {text : String} {ok : Prop}

theorem decode_eq_ok (h : Json.Reads (Json.Form.read? text) b ok) (hok : ok) :
    (decode text.toUTF8 : Outcome α β) = .ok b := by
  rw [decode, fromUTF8?_toUTF8, Option.bind_some, h.eq_some hok]

theorem decode_eq_error (h : (Json.Form.read? text : Option β) = none) :
    (decode text.toUTF8 : Outcome α β) = .error .malformedDocument := by
  rw [decode, fromUTF8?_toUTF8, Option.bind_some, h]

end Contents

/-! ### Documents of stored states -/

/-- Models that are read back from a stored state exactly if they can be stored. -/
class Storable (M : Type) [Json.Form M] where
  IsStorable : M → Prop
  reads (model : M) : Json.Reads (Json.Form.ofJson? (Json.depthLimit - 1)
    (Json.Form.toJson model).canonical) model (IsStorable model)
  nesting_lt (model : M) : IsStorable model → (Json.Form.toJson model).nesting < Json.maxNesting

instance [Scalar α] [Numeral α] [LawfulNumeral α] : Storable (Forest α) where
  IsStorable := Forest.IsStorable
  reads := Forest.reads_forest
  nesting_lt _ h := h.nesting_lt

section Blobs

variable [Json.Form M]

/-- Reading a stored model goes through its three fields. -/
theorem ofJson?_blob (depth : Nat) (blob : Blob M) :
    (Json.Form.ofJson? (depth + 1) (Json.Form.toJson blob).canonical : Option (Blob M)) =
      (do
        let model ← Json.Form.ofJson? depth (Json.Form.toJson blob.model).canonical
        let featureNames ← Json.Form.ofJson? depth (Json.Form.toJson blob.featureNames).canonical
        let trainedAt ← Json.Form.ofJson? depth (Json.Form.toJson blob.trainedAt).canonical
        return { model, featureNames, trainedAt }) := by
  show (Json.fields? ["model", "feature_names", "trained_at"] (depth + 1)
    (Json.record [("model", Json.Form.toJson blob.model),
      ("feature_names", Json.Form.toJson blob.featureNames),
      ("trained_at", Json.Form.toJson blob.trainedAt)]).canonical >>= _) = _
  rw [Json.fields?_record ["model", "feature_names", "trained_at"] rfl (by decide),
    Option.bind_eq_bind, Option.bind_some]
  rfl

/-- A stored model is read back exactly if the model in it can be stored. -/
theorem reads_blob [Storable M] {blob : Blob M} (hvalid : blob.trainedAt.IsValid) :
    Json.Reads (Json.Form.ofJson? Json.depthLimit (Json.Form.toJson blob).canonical) blob
      (Storable.IsStorable blob.model) := by
  show Json.Reads (Json.Form.ofJson? (Json.depthLimit - 1 + 1) _) _ _
  rw [ofJson?_blob]
  refine Json.Reads.congr ((Storable.reads blob.model).bind
    ((Json.reads_texts (Json.depthLimit - 2) blob.featureNames).bind
      ((Time.reads_instant _ hvalid).bind (Json.reads_some _)))) ?_
  tauto

theorem nesting_blob_le (blob : Blob M) {n : Nat} (h : (Json.Form.toJson blob.model).nesting ≤ n)
    (hpos : 0 < n) : (Json.Form.toJson blob).nesting ≤ n + 1 := by
  refine Json.nesting_record_le ?_
  intro member hmember
  simp only [List.mem_cons, List.not_mem_nil, or_false] at hmember
  rcases hmember with rfl | rfl | rfl
  · exact h
  · exact (Json.nesting_list_le fun (_ : String) _ ↦ Nat.le_refl 0).trans hpos
  · exact Nat.zero_le _

/-- The document of a model has none of the fields of statistics. -/
theorem ofJson?_statistics_blob [Scalar α] [Numeral α] (depth : Nat) (blob : Blob M) :
    (Json.Form.ofJson? depth (Json.Form.toJson blob).canonical : Option (Statistics α)) = none := by
  cases depth <;> rfl

theorem read?_statistics_blob [Scalar α] [Numeral α] (blob : Blob M) :
    (Json.Form.read? (Json.Form.toJson blob).compact : Option (Statistics α)) = none := by
  rw [Json.Form.read?, Json.compact, String.toList_ofList, Json.writeCompact_eq_spell 0]
  rcases hj : Json.parse? (Json.spell .none 0 [] (Json.Form.toJson blob)) with _ | j
  · rfl
  · rw [Json.eq_canonical_of_parse? _ _ hj, Option.bind_some, ofJson?_statistics_blob]

end Blobs

/-! ### Loading -/

variable [Scalar α] [Numeral α]

omit [Scalar α] [Numeral α] in
theorem run_reading (path : Path) (tree : Tree) :
    (reading (Disk.read path) : Step α ByteArray).run (.ofTree tree) =
      ((tree.read path).mapError .unreadableFile, .ofTree tree) := by
  have hread : (Disk.read path).run (.ofTree tree) = (tree.read path, .ofTree tree) := by
    have hattempt : Disk.attempt.run (.ofTree tree) = (.ok (), .ofTree tree) := rfl
    rw [Disk.read, run_bind, hattempt]
    exact run_look (·.read path) (.ofTree tree)
  rw [reading, run_adapt, hread]

omit [Scalar α] [Numeral α] in
theorem run_ofOutcome (outcome : Outcome α β) (disk : Disk) :
    (ofOutcome outcome).run disk = (outcome, disk) := rfl

/-- Both files are there, so that both of them are decoded. -/
theorem load_of_read [Json.Form M] (store : Store) {tree : Tree} {model scaler : ByteArray}
    (hmodel : tree.read store.model = .ok model) (hscaler : tree.read store.scaler = .ok scaler) :
    (store.load : Step α (Option (Blob M × Statistics α))).run (.ofTree tree) =
      ((do
        let blob ← decode model
        let statistics ← decode scaler
        return some (blob, statistics)), .ofTree tree) := by
  have hpresent : store.isPresent tree = true := by
    rw [isPresent, Bool.and_eq_true, Tree.isFile_iff_exists_read, Tree.isFile_iff_exists_read]
    exact ⟨⟨model, hmodel⟩, ⟨scaler, hscaler⟩⟩
  show (if store.isPresent tree then _ else _ : Step α _).run (.ofTree tree) = _
  -- The model is decoded before the statistics are read, and reading them cannot fail.
  rw [if_pos hpresent, run_bind, run_reading, hmodel]
  simp only [Except.mapError]
  rw [run_bind, run_ofOutcome]
  rcases (decode model : Outcome α (Blob M)) with failure | blob
  · rfl
  simp only
  rw [run_bind, run_reading, hscaler]
  simp only [Except.mapError]
  rw [run_bind, run_ofOutcome]
  rcases (decode scaler : Outcome α (Statistics α)) with failure | statistics
  · rfl
  · rfl

variable [LawfulNumeral α]

/-- The two files hold a model and statistics. -/
structure Holds [Json.Form M] (store : Store) (tree : Tree) (blob : Blob M)
    (statistics : Statistics α) : Prop where
  read_model : tree.read store.model = .ok (Json.Form.toJson blob).compact.toUTF8
  read_scaler : tree.read store.scaler = .ok (Json.Form.toJson statistics).pretty.toUTF8

section Reading

variable [Json.Form M] [Storable M] {store : Store} {blob : Blob M} {statistics : Statistics α}
  {tree : Tree} (hvalid : blob.trainedAt.IsValid)

omit [Json.Form M] [Storable M] in
theorem reads_scalerFile (statistics : Statistics α) :
    Json.Reads (Json.Form.read? (Json.Form.toJson statistics).pretty) statistics
      statistics.IsStorable :=
  Json.reads_pretty (statistics.reads_statistics (Json.depthLimit - 3)) fun _ ↦
    statistics.nesting_toJson_le.trans (by decide)

include hvalid

omit [Scalar α] [Numeral α] [LawfulNumeral α] in
theorem reads_modelFile :
    Json.Reads (Json.Form.read? (Json.Form.toJson blob).compact) blob
      (Storable.IsStorable blob.model) := by
  refine Json.reads_compact (reads_blob hvalid) ?_
  intro hstorable
  have hblob := nesting_blob_le blob (Nat.le_max_left (Json.Form.toJson blob.model).nesting 1)
    (Nat.lt_of_lt_of_le Nat.one_pos (Nat.le_max_right _ _))
  have hmodel := Storable.nesting_lt blob.model hstorable
  exact hblob.trans (Nat.succ_le_of_lt (Nat.max_lt.mpr ⟨hmodel, by decide⟩))

/-- What the two files hold is loaded if both of them can be read. Otherwise the load fails. -/
theorem Holds.load (h : store.Holds tree blob statistics) :
    (Storable.IsStorable blob.model ∧ statistics.IsStorable →
      store.load.run (.ofTree tree) = (.ok (some (blob, statistics)), .ofTree tree)) ∧
    (¬(Storable.IsStorable blob.model ∧ statistics.IsStorable) →
      (store.load : Step α (Option (Blob M × Statistics α))).run (.ofTree tree) =
        (.error .malformedDocument, .ofTree tree)) := by
  have hblob := reads_modelFile hvalid
  rw [load_of_read store h.read_model h.read_scaler]
  -- Whichever part cannot be read, the fault is the same.
  constructor
  · rintro ⟨hmodel, hstatistics⟩
    rw [decode_eq_ok hblob hmodel, decode_eq_ok (reads_scalerFile statistics) hstatistics]
    rfl
  · intro hn
    by_cases hmodel : Storable.IsStorable blob.model
    · rw [decode_eq_ok hblob hmodel,
        decode_eq_error ((reads_scalerFile statistics).eq_none fun hok ↦ hn ⟨hmodel, hok⟩)]
      rfl
    · rw [decode_eq_error (hblob.eq_none hmodel)]
      rfl

end Reading

/-- After a save that succeeded, a load gives exactly what was saved if the two paths lead to
different places, the model can be stored and the statistics can be stored. In every other case the
save has succeeded all the same, and the load fails because a file is no document of its kind. -/
theorem load_after_save [Json.Form M] [Storable M] (store : Store) (blob : Blob M)
    (statistics : Statistics α) (disk disk' : Disk) (hvalid : blob.trainedAt.IsValid)
    (h : (store.save blob statistics).run disk = (.ok (), disk')) :
    (store.scaler.place ≠ store.model.place ∧ Storable.IsStorable blob.model ∧
        statistics.IsStorable →
      store.load.run (.ofTree disk'.tree) =
        (.ok (some (blob, statistics)), .ofTree disk'.tree)) ∧
    (¬(store.scaler.place ≠ store.model.place ∧ Storable.IsStorable blob.model ∧
        statistics.IsStorable) →
      (store.load : Step α (Option (Blob M × Statistics α))).run (.ofTree disk'.tree) =
        (.error .malformedDocument, .ofTree disk'.tree)) := by
  have hreplaced := (ends_replace store _ _ disk.tree).of_run_eq_ok h
  have hscaler := hreplaced.read_scaler
  rw [lastWritten] at hscaler
  by_cases hplaces : store.scaler.place = store.model.place
  · refine ⟨fun hdiffer ↦ absurd hplaces hdiffer.1, fun _ ↦ ?_⟩
    rw [if_pos hplaces] at hscaler
    rw [load_of_read store hreplaced.read_model hscaler]
    -- The document of the model is read twice, and it is not one of statistics.
    have hblob := reads_modelFile hvalid
    by_cases hmodel : Storable.IsStorable blob.model
    · rw [decode_eq_ok hblob hmodel, decode_eq_error (read?_statistics_blob blob)]
      rfl
    · rw [decode_eq_error (hblob.eq_none hmodel)]
      rfl
  · rw [if_neg hplaces] at hscaler
    have hload := Holds.load hvalid ⟨hreplaced.read_model, hscaler⟩
    exact ⟨fun hok ↦ hload.1 hok.2, fun hn ↦ hload.2 fun hok ↦ hn ⟨hplaces, hok⟩⟩

/-- A forest of one leaf with its names. -/
def leafBlob : Blob (Forest Float) := ⟨⟨[.leaf 1], 1, 1, 0.1, -1⟩, ["value"], default⟩

/-- Statistics that leave numbers as they are. -/
def plainStatistics : Statistics Float := ⟨#[0], #[1]⟩

theorem isStorable_leafBlob : leafBlob.model.IsStorable where
  trees tree htree := by
    obtain rfl := List.mem_singleton.mp htree
    exact ⟨rfl, by decide, nofun, by decide +kernel, by decide, trivial, trivial⟩
  sampleSize_lt := by decide
  features_lt := by decide
  contamination_finite := by decide +kernel
  offset_finite := by decide +kernel

theorem isStorable_plainStatistics : plainStatistics.IsStorable where
  mean := ⟨by decide, by decide +kernel⟩
  scale := ⟨by decide, by decide +kernel⟩

/-- In two files the state is found again, in one file it is lost. -/
theorem load_after_save_leafBlob :
    (∃ disk', (save ⟨"m.json", "s.json"⟩ leafBlob plainStatistics).run (.ofTree .empty) =
        (.ok (), disk') ∧
      (load ⟨"m.json", "s.json"⟩).run (.ofTree disk'.tree) =
        (.ok (some (leafBlob, plainStatistics)), .ofTree disk'.tree)) ∧
    ∃ disk', (save ⟨"m.json", "m.json"⟩ leafBlob plainStatistics).run (.ofTree .empty) =
        (.ok (), disk') ∧
      (load ⟨"m.json", "m.json"⟩ : Step Float (Option (Blob (Forest Float) × Statistics Float))).run
        (.ofTree disk'.tree) = (.error .malformedDocument, .ofTree disk'.tree) := by
  have hvalid : leafBlob.trainedAt.IsValid := ⟨by decide, by decide, by decide, by decide⟩
  obtain ⟨disk, hrun⟩ : ∃ disk', (save ⟨"m.json", "s.json"⟩ leafBlob plainStatistics).run
      (.ofTree .empty) = (.ok (), disk') := ⟨_, Prod.ext rfl rfl⟩
  obtain ⟨disk', hrun'⟩ : ∃ disk', (save ⟨"m.json", "m.json"⟩ leafBlob plainStatistics).run
      (.ofTree .empty) = (.ok (), disk') := ⟨_, Prod.ext rfl rfl⟩
  refine ⟨⟨disk, hrun, (load_after_save _ _ _ _ _ hvalid hrun).1 ⟨by decide, isStorable_leafBlob,
    isStorable_plainStatistics⟩⟩, ⟨disk', hrun', (load_after_save _ _ _ _ _ hvalid hrun').2 ?_⟩⟩
  rintro ⟨hdiffer, -⟩
  exact hdiffer rfl

end Store

end OutlierScoring
