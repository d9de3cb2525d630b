import OutlierScoring.Proofs.Files.Akin
import OutlierScoring.Proofs.Store.Loading
import OutlierScoring.Proofs.Store.Replacing

/-!
# Saving over old files

What the two files of a store held before has no say in whether a save succeeds
(`replace_cases`). It has no say in what a save fails with either, if neither of them stands where a
folder has to be (`agree_replace`).
-/

namespace OutlierScoring.Store

open Files Tree

variable {α : Type}

/-- The place of one of the two files. The folders that are always there are none. -/
def IsTarget (store : Store) (place : Location) : Prop :=
  place.isGiven = false ∧ (place = store.model.place ∨ place = store.scaler.place)

/-- The trees hold the same, but for the two files of the store, which may hold anything or be
missing, and folders on the way to them, which may be missing too. -/
def SameAround (store : Store) (tree twin : Tree) : Prop :=
  Akin store.IsTarget (· ∈ store.folders) [] tree twin

/-- Neither of the two files has a place where a folder has to be for the paths to be followed. -/
def IsClear (store : Store) : Prop :=
  ∀ place ∈ store.model.trail.dropLast ++ store.scaler.trail.dropLast, ¬store.IsTarget place

section Agreement

variable {store : Store} (hclear : store.IsClear)

include hclear

theorem IsClear.model : ∀ place ∈ store.model.trail.dropLast, ¬store.IsTarget place :=
  fun place hplace ↦ hclear place (List.mem_append_left _ hplace)

theorem IsClear.scaler : ∀ place ∈ store.scaler.trail.dropLast, ¬store.IsTarget place :=
  fun place hplace ↦ hclear place (List.mem_append_right _ hplace)

end Agreement

theorem not_isTarget_of_mem_folder {store : Store} {path : Path}
    (hway : ∀ place ∈ path.trail.dropLast, ¬store.IsTarget place) :
    ∀ place ∈ path.folder.trail, ¬store.IsTarget place := by
  intro place hplace
  rcases Path.mem_trail_of_mem_folder hplace with hgiven | hmem
  · exact fun htarget ↦ absurd (hgiven.symm.trans htarget.1) nofun
  · exact hway place hmem

/-- A look at what is there cannot fail where the device refuses nothing. -/
theorem exists_run_readExisting (path : Path) (tree : Tree) : ∃ previous,
    (readExisting path : Step α _).run (.ofTree tree) = (.ok previous, .ofTree tree) := by
  show ∃ previous, (if tree.isFile path then _ else _ : Step α _).run (.ofTree tree) =
    (.ok previous, .ofTree tree)
  split
  · rename_i hfile
    obtain ⟨content, hread⟩ := isFile_iff_exists_read.mp hfile
    refine ⟨some content, ?_⟩
    rw [run_bind, run_reading, hread]
    rfl
  · exact ⟨none, rfl⟩

theorem agree_readExisting {path : Path} {files folders : Location → Prop} {temps : List Location}
    {disk twin : Disk} (h : AkinDisks files folders temps disk twin) :
    Agree (readExisting path : Step α _) (readExisting path) disk twin
      (fun _ _ ↦ AkinDisks files folders temps) AnyDisks := by
  obtain ⟨tree, refusals⟩ := disk
  obtain ⟨twin, refusals'⟩ := twin
  obtain ⟨hakin, rfl, rfl⟩ : _ ∧ refusals = [] ∧ refusals' = [] := h
  obtain ⟨previous, hprevious⟩ := exists_run_readExisting path tree
  obtain ⟨previous', hprevious'⟩ := exists_run_readExisting path twin
  exact .of_ok hprevious hprevious' ⟨hakin, rfl, rfl⟩

/-- Whatever is stored, and whatever the two files held, replacing them goes the same way. -/
theorem agree_replace {store : Store} (hclear : store.IsClear) {tree twin : Tree}
    (h : store.SameAround tree twin) (model model' scaler scaler' : ByteArray) :
    Agree (store.replace model scaler : Step α Unit) (store.replace model' scaler') (.ofTree tree)
      (.ofTree twin) (fun _ _ ↦ AnyDisks) AnyDisks := by
  have hmodelNot := not_isTarget_of_mem_folder hclear.model
  have hscalerNot := not_isTarget_of_mem_folder hclear.scaler
  have hstart : AkinDisks store.IsTarget (· ∈ store.folders) [] (.ofTree tree) (.ofTree twin) :=
    ⟨h, rfl, rfl⟩
  refine .bind (.adapt _ (hstart.stage isPrivate_model fun place hplace ↦
    ⟨hmodelNot place hplace, List.not_mem_nil⟩)) ?_
  rintro _ _ first first' ⟨rfl, rfl, hfirst⟩
  refine agree_keeping (.bind (.adapt _ (hfirst.stage isPrivate_scaler fun place hplace ↦
    ⟨hscalerNot place hplace, ?_⟩)) ?_)
  · have hnamed := store.isSplit_scaler.isNamed_of_mem_folder hplace
    exact fun hmem ↦ store.modelTemp_ne hnamed (List.mem_singleton.mp hmem).symm
  rintro _ _ second second' ⟨rfl, rfl, hsecond⟩
  -- With both files staged, all folders on the way have been made.
  have hstaged : AkinDisks store.IsTarget (fun _ ↦ False) [store.scalerTemp, store.modelTemp]
      second second' := by
    refine ⟨hsecond.1.of_forall_not ?_, hsecond.2⟩
    rintro place ⟨⟨hmem, hmodel⟩, hscaler⟩
    exact (List.mem_append.mp hmem).elim hmodel hscaler
  have hmoved : Agree (Disk.keeping ⟨store.scalerTemp⟩ do
        let previous ← readExisting store.scaler
        storing store.scalerPath (Disk.commit ⟨store.scalerTemp⟩ store.scaler)
        return previous : Step α _)
      (Disk.keeping ⟨store.scalerTemp⟩ do
        let previous ← readExisting store.scaler
        storing store.scalerPath (Disk.commit ⟨store.scalerTemp⟩ store.scaler)
        return previous) second second'
      (fun _ _ ↦ AkinDisks store.IsTarget (fun _ ↦ False) [store.modelTemp]) AnyDisks := by
    refine agree_keeping (.bind (agree_readExisting hstaged) fun _ _ between between' h ↦ ?_)
    refine .bind (.adapt _ (h.commit ?_ store.not_isNamed_scalerTemp ?_ store.isSplit_scaler
      (fun hgiven ↦ ⟨hgiven, .inr rfl⟩) hclear.scaler)) fun _ _ _ _ hafter ↦ agree_pure hafter
    · exact fun hmem ↦ store.modelTemp_ne_scalerTemp (List.mem_singleton.mp hmem).symm
    · intro temp htemp
      obtain rfl := List.mem_singleton.mp htemp
      exact store.not_isNamed_modelTemp
  refine hmoved.bind fun previous previous' moved moved' hmoved ↦ ?_
  have hcommit := hmoved.commit List.not_mem_nil store.not_isNamed_modelTemp nofun
    store.isSplit_model (fun hgiven ↦ ⟨hgiven, .inl rfl⟩) hclear.model
  refine .tryCatch (.adapt _ (hcommit.imp (fun _ _ _ _ _ ↦ trivial) fun _ _ ↦ id))
    fun failure between between' _ ↦ ?_
  have hrestore : Agree (Disk.restore store.scaler previous : Step α Unit)
      (Disk.restore store.scaler previous') between between' (fun _ _ ↦ AnyDisks) AnyDisks :=
    agree_modify trivial
  exact hrestore.bind fun _ _ _ _ _ ↦ agree_throw failure trivial

/-- Where both files were replaced, the paths to them lead through folders only. -/
theorem Replaced.isClear {store : Store} {model scaler : ByteArray} {after : Tree}
    (h : store.Replaced model scaler after) : store.IsClear := by
  obtain ⟨hmodel, hmodelFile⟩ := read_eq_ok h.read_model
  obtain ⟨hscaler, hscalerFile⟩ := read_eq_ok h.read_scaler
  intro place hplace htarget
  have hfolder : after.find? place = some .folder :=
    (List.mem_append.mp hplace).elim (find?_of_resolve hmodel place)
      (find?_of_resolve hscaler place)
  rcases htarget.2 with rfl | rfl
  · rw [hmodelFile] at hfolder
    cases hfolder
  · rw [hscalerFile] at hfolder
    cases hfolder

/-- A replacement succeeds, and otherwise fails, whatever the two files held. If no file is to be a
folder, then it fails for the same cause. -/
theorem replace_cases {store : Store} {tree twin : Tree} (h : store.SameAround tree twin)
    (model model' scaler scaler' : ByteArray) :
    (∃ after after', store.IsClear ∧
      (store.replace model scaler : Step α Unit).run (.ofTree tree) = (.ok (), after) ∧
      (store.replace model' scaler' : Step α Unit).run (.ofTree twin) = (.ok (), after')) ∨
    ∃ failure failure' after after', (store.IsClear → failure = failure') ∧
      (store.replace model scaler : Step α Unit).run (.ofTree tree) = (.error failure, after) ∧
      (store.replace model' scaler' : Step α Unit).run (.ofTree twin) =
        (.error failure', after') := by
  by_cases hclear : store.IsClear
  · rcases (agree_replace hclear h model model' scaler scaler').cases with
      ⟨⟨⟩, ⟨⟩, after, after', -, hrun, hrun'⟩ | ⟨failure, after, after', -, hrun, hrun'⟩
    · exact .inl ⟨after, after', hclear, hrun, hrun'⟩
    · exact .inr ⟨failure, failure, after, after', fun _ ↦ rfl, hrun, hrun'⟩
  · have hfails (t : Tree) (model scaler : ByteArray) : ∃ failure after,
        (store.replace model scaler : Step α Unit).run (.ofTree t) = (.error failure, after) := by
      rcases hrun : (store.replace model scaler : Step α Unit).run (.ofTree t) with
        ⟨failure | ⟨⟩, after⟩
      · exact ⟨failure, after, rfl⟩
      · exact absurd ((ends_replace store model scaler t).of_run_eq_ok hrun).isClear hclear
    obtain ⟨failure, after, hrun⟩ := hfails tree model scaler
    obtain ⟨failure', after', hrun'⟩ := hfails twin model' scaler'
    exact .inr ⟨failure, failure', after, after', fun h ↦ absurd h hclear, hrun, hrun'⟩

end OutlierScoring.Store
