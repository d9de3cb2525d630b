import OutlierScoring.Proofs.Files.Staging
import OutlierScoring.Store

/-!
# Replacing the two files of a store

`Store.replace` either replaces both files or leaves nothing but folders behind (`ends_replace`).
The case where it fails holds for any two paths. Where it succeeds, paths that lead to one place
leave one file there, the one that is moved last.
-/

namespace OutlierScoring.Store

open Files Tree

variable {α : Type} {tree : Tree} {path : Path}

/-- Where the file for the model is staged. -/
def modelTemp (store : Store) : Location := "/model" :: store.model.folder.place

/-- Where the file for the statistics is staged. -/
def scalerTemp (store : Store) : Location := "/scaler" :: store.scaler.folder.place

/-- The locations on the way to the folders of the two files. -/
def folders (store : Store) : List Location :=
  store.model.folder.trail ++ store.scaler.folder.trail

/-- The content of the file at the place of the statistics, after one for the model and one for the
statistics were stored. -/
def lastWritten (store : Store) (model scaler : ByteArray) : ByteArray :=
  if store.scaler.place = store.model.place then model else scaler

/-- Both files were replaced, and the staged ones are gone. -/
structure Replaced (store : Store) (model scaler : ByteArray) (after : Tree) : Prop where
  read_model : after.read store.model = .ok model
  read_scaler : after.read store.scaler = .ok (store.lastWritten model scaler)
  find?_modelTemp : after.find? store.modelTemp = none
  find?_scalerTemp : after.find? store.scalerTemp = none

theorem isPrivate_model : IsPrivate "/model" := ⟨by decide, by decide⟩

theorem isPrivate_scaler : IsPrivate "/scaler" := ⟨by decide, by decide⟩

theorem isSplit_model (store : Store) : store.model.IsSplit := Path.isSplit_ofText store.modelPath

theorem isSplit_scaler (store : Store) : store.scaler.IsSplit :=
  Path.isSplit_ofText store.scalerPath

theorem isNamed_model (store : Store) : store.model.place.IsNamed :=
  store.isSplit_model.isNamed_place

theorem isNamed_scaler (store : Store) : store.scaler.place.IsNamed :=
  store.isSplit_scaler.isNamed_place

theorem not_isNamed_modelTemp (store : Store) : ¬Location.IsNamed store.modelTemp :=
  isPrivate_model.not_isNamed _

theorem not_isNamed_scalerTemp (store : Store) : ¬Location.IsNamed store.scalerTemp :=
  isPrivate_scaler.not_isNamed _

theorem modelTemp_ne (store : Store) {place : Location} (h : place.IsNamed) :
    store.modelTemp ≠ place :=
  fun heq ↦ store.not_isNamed_modelTemp (heq ▸ h)

theorem scalerTemp_ne (store : Store) {place : Location} (h : place.IsNamed) :
    store.scalerTemp ≠ place :=
  fun heq ↦ store.not_isNamed_scalerTemp (heq ▸ h)

theorem modelTemp_ne_scalerTemp (store : Store) : store.modelTemp ≠ store.scalerTemp :=
  fun h ↦ absurd (List.cons.inj h).1 (by decide)

/-! ### Parts of a replacement -/

theorem ends_readExisting :
    Ends (readExisting path : Step α _) tree
      (fun previous after ↦ tree = after ∧ Remembers tree path previous)
      (fun after ↦ tree = after) := by
  refine ends_get_bind ?_
  intro refusals
  rcases h : tree.isFile path
  · exact ends_pure ⟨rfl, h⟩
  · simp only [if_true]
    have hread : Ends (Disk.read path) tree
        (fun content after ↦ tree = after ∧ tree.read path = .ok content)
        (fun after ↦ tree = after) :=
      ends_attempt_bind rfl (ends_look (fun _ h ↦ ⟨rfl, h⟩) fun _ _ ↦ rfl)
    refine (hread.adapt _).bind ?_
    rintro content _ ⟨rfl, h⟩
    exact ends_pure ⟨rfl, h⟩

section Halves

variable {store : Store} {model scaler : ByteArray} {moved after : Tree}
  (hmodel : tree.find? store.modelTemp = some (.file model))
  (hscaler : tree.find? store.scalerTemp = some (.file scaler))
  (hmoved : Moved store.scalerTemp store.scaler tree moved)

include hmodel hscaler hmoved

/-- After both moves, first that of the statistics, both files are replaced. -/
theorem replaced_of_moved (hcommitted : Moved store.modelTemp store.model moved after) :
    store.Replaced model scaler after := by
  have hfile {source : Location} {t : Tree} {content : ByteArray}
      (h : t.find? source = some (.file content)) : t.find? source ≠ some .folder := by
    rw [h]
    exact nofun
  have hscalerTemp := store.scalerTemp_ne store.isNamed_scaler
  have hmodelTemp := store.modelTemp_ne store.isNamed_scaler
  have hmodel' : moved.find? store.modelTemp = some (.file model) :=
    (hmoved.find?_of_ne store.modelTemp_ne_scalerTemp hmodelTemp).trans hmodel
  have hplace : after.find? store.model.place = some (.file model) :=
    hcommitted.find?_place.trans hmodel'
  have hkeeps := hcommitted.keepsFolders (hfile hmodel')
  have hresolve : after.resolve store.scaler = .ok store.scaler.place :=
    resolve_of_keepsFolders store.isSplit_scaler hkeeps
      (resolve_of_keepsFolders store.isSplit_scaler (hmoved.keepsFolders (hfile hscaler))
        hmoved.resolve)
  refine ⟨read_of_resolve (resolve_of_keepsFolders store.isSplit_model hkeeps hcommitted.resolve)
    hplace, read_of_resolve hresolve ?_, ?_, ?_⟩
  · rw [lastWritten]
    split
    · rename_i hsame
      rw [hsame, hplace]
    · rename_i hother
      rw [hcommitted.find?_of_ne hmodelTemp.symm hother, hmoved.find?_place, hscaler]
  · exact hcommitted.find?_source (store.modelTemp_ne store.isNamed_model)
      (Location.isGiven_eq_false store.not_isNamed_modelTemp)
  · rw [hcommitted.find?_of_ne store.modelTemp_ne_scalerTemp.symm
      (store.scalerTemp_ne store.isNamed_model)]
    exact hmoved.find?_source hscalerTemp
      (Location.isGiven_eq_false store.not_isNamed_scalerTemp)

/-- The second half of a replacement, from where both files are staged: the statistics are moved
first, and if the model cannot follow they are taken back. -/
theorem ends_commit_both {previous : Option ByteArray}
    (hprevious : Remembers tree store.scaler previous) :
    Ends (tryCatch (storing store.modelPath (Disk.commit ⟨store.modelTemp⟩ store.model))
        fun failure ↦ do
          Disk.restore store.scaler previous
          throw failure : Step α Unit)
      moved (fun _ after ↦ store.Replaced model scaler after)
      (fun after ↦ ∀ place, after.find? place = (tree.erase store.scalerTemp).find? place) := by
  have hscalerTemp := store.scalerTemp_ne store.isNamed_scaler
  refine .tryCatch (.adapt _ (ends_commit.imp
    (fun _ _ hcommitted ↦ replaced_of_moved hmodel hscaler hmoved hcommitted) fun _ ↦ id)) ?_
  rintro failure _ rfl
  refine .bind (ends_restore store.isSplit_scaler hmoved hscaler hscalerTemp hprevious)
    fun _ back hback ↦ ?_
  exact ends_throw hback

end Halves

/-! ### The replacement -/

/-- Whatever the two paths are and whatever stands there: a replacement either replaces both files
or leaves nothing behind but folders. -/
theorem ends_replace (store : Store) (model scaler : ByteArray) (tree : Tree) :
    Ends (store.replace model scaler : Step α Unit) tree
      (fun _ after ↦ store.Replaced model scaler after)
      (Undone store.folders [store.modelTemp, store.scalerTemp] tree) := by
  have hmodelTemp := Location.isGiven_eq_false store.not_isNamed_modelTemp
  have hscalerTemp := Location.isGiven_eq_false store.not_isNamed_scalerTemp
  refine .bind (.adapt _ ((ends_stage isPrivate_model).imp (fun _ _ ↦ id) fun after h ↦ ?_)) ?_
  · exact h.mono (fun _ ↦ List.mem_append_left _) (by simp [modelTemp])
  rintro _ first ⟨rfl, hfirst, hmodel⟩
  -- From here on the staged model is dropped where a step fails.
  have hfirst : Grown store.folders [store.modelTemp] tree first :=
    hfirst.mono (fun _ ↦ List.mem_append_left _) fun _ ↦ id
  have hdrop : ∀ after, Undone store.folders [store.scalerTemp] first after →
      Undone store.folders [store.modelTemp, store.scalerTemp] tree (after.erase store.modelTemp) :=
    fun after h ↦ .erase hmodelTemp hfirst h
  refine ends_keeping (.bind (.adapt _ ((ends_stage isPrivate_scaler).imp (fun _ _ ↦ id)
    fun after h ↦ hdrop after ?_)) ?_)
  · exact h.mono (fun _ ↦ List.mem_append_right _) (by simp [scalerTemp])
  rintro _ second ⟨rfl, hsecond, hscaler⟩
  have hsecond : Grown store.folders [store.scalerTemp] first second :=
    hsecond.mono (fun _ ↦ List.mem_append_right _) fun _ ↦ id
  have hmodel : second.find? store.modelTemp = some (.file model) :=
    hsecond.find?_eq_some (by simpa using store.modelTemp_ne_scalerTemp) hmodel
  -- Without the staged statistics, nothing is left of the second half.
  have hundone : Undone store.folders [store.scalerTemp] first (second.erase store.scalerTemp) :=
    .erase hscalerTemp hsecond (Grown.refl _ _ _).undone
  have hmove : Ends (Disk.keeping ⟨store.scalerTemp⟩ do
        let previous ← readExisting store.scaler
        storing store.scalerPath (Disk.commit ⟨store.scalerTemp⟩ store.scaler)
        return previous : Step α _) second
      (fun previous after ↦ Remembers second store.scaler previous ∧
        Moved store.scalerTemp store.scaler second after)
      (fun between ↦ Undone store.folders [store.modelTemp, store.scalerTemp] tree
        (between.erase store.modelTemp)) := by
    refine ends_keeping (.bind (ends_readExisting.imp (fun _ _ ↦ id) ?_) ?_)
    · rintro _ rfl
      exact hdrop _ hundone
    · rintro previous _ ⟨rfl, hprevious⟩
      refine .bind (.adapt _ (ends_commit.imp (fun _ _ ↦ id) ?_)) fun _ after hmoved ↦
        ends_pure ⟨hprevious, hmoved⟩
      rintro _ rfl
      exact hdrop _ hundone
  refine hmove.bind ?_
  rintro previous moved ⟨hprevious, hmoved⟩
  exact (ends_commit_both hmodel hscaler hmoved hprevious).imp (fun _ _ ↦ id)
    fun after hafter ↦ hdrop after (hundone.congr hafter)

end OutlierScoring.Store
