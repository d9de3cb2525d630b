import OutlierScoring.Number.Binary64
import OutlierScoring.Proofs.Store.Replacing

/-!
# Saving that fails

A save that fails changes nothing (`save_error_changes_nothing`): both paths hold what they held, no
file is left that was not there before, and everything else is still there. What may be new are
folders on the way to the two files, and there is nothing in them.

What a path holds is the content of the file at its place. A path that cannot be followed, because a
folder on the way is missing, holds nothing that could be read; where it can be followed, what is
read from it is what it holds.
-/

namespace OutlierScoring

namespace Files.Tree

/-- Around everything in the tree there is a folder. -/
def IsClosed (tree : Tree) : Prop :=
  ∀ (place : Location) entry, tree.find? place = some entry → tree.find? place.up = some .folder

variable {before after : Tree} {trail temps : List Location} {path : Path} {place : Location}

theorem Undone.find?_eq_some (h : Undone trail temps before after)
    (htemps : ∀ temp ∈ temps, ¬temp.IsNamed) (hplace : place.IsNamed) {entry : Entry}
    (hentry : before.find? place = some entry) : after.find? place = some entry :=
  h.grown.find?_eq_some (fun hmem ↦ htemps place hmem hplace) hentry

theorem Undone.contentAt?_eq (h : Undone trail temps before after)
    (htemps : ∀ temp ∈ temps, ¬temp.IsNamed) (hplace : place.IsNamed) :
    after.contentAt? place = before.contentAt? place := by
  refine Option.ext ?_
  intro content
  rw [contentAt?_eq_some_iff, contentAt?_eq_some_iff]
  exact ⟨h.file_before place content, h.find?_eq_some htemps hplace⟩

theorem Undone.toOption_read_eq (h : Undone trail temps before after)
    (htemps : ∀ temp ∈ temps, ¬temp.IsNamed) (hpath : path.IsSplit)
    (hresolve : before.resolve path = .ok place) :
    (after.read path).toOption = (before.read path).toOption := by
  have hkeeps : before.KeepsFolders after := fun _ hnamed hfolder ↦
    h.find?_eq_some htemps hnamed hfolder
  rw [toOption_read (resolve_of_keepsFolders hpath hkeeps hresolve), toOption_read hresolve]
  exact h.contentAt?_eq htemps hpath.isNamed_place

theorem Undone.read_eq_ok (h : Undone trail temps before after)
    (htemps : ∀ temp ∈ temps, ¬temp.IsNamed) (hpath : path.IsSplit) {content : ByteArray}
    (hread : before.read path = .ok content) : after.read path = .ok content := by
  obtain ⟨hresolve, hfile⟩ := Tree.read_eq_ok hread
  have hkeeps : before.KeepsFolders after := fun _ hnamed hfolder ↦
    h.find?_eq_some htemps hnamed hfolder
  exact read_of_resolve (resolve_of_keepsFolders hpath hkeeps hresolve)
    (h.find?_eq_some htemps hpath.isNamed_place hfile)

/-- What is new in a tree is a folder on the trail. -/
theorem Undone.new_folder (h : Undone trail temps before after)
    (hplace : place ∉ temps) (hnone : before.find? place = none)
    (hsome : after.find? place ≠ none) : after.find? place = some .folder ∧ place ∈ trail := by
  rcases h.grown place hplace with heq | ⟨-, hfolder, hmem⟩
  · exact absurd (heq.trans hnone) hsome
  · exact ⟨hfolder, hmem⟩

/-- In a folder that is new there are no files. -/
theorem Undone.no_file_in_new_folder (h : Undone trail temps before after)
    (hclosed : before.IsClosed) (hnone : before.find? place = none) {inner : Location}
    (hinner : inner.up = place) (content : ByteArray) :
    after.find? inner ≠ some (.file content) := by
  intro hfile
  -- The file would be one from before, and then its folder would be too.
  have hfolder := hclosed inner _ (h.file_before inner content hfile)
  rw [hinner, hnone] at hfolder
  exact absurd hfolder nofun

end Files.Tree

namespace Store

open Files Tree

variable {α M : Type} [Scalar α] [Numeral α] [Json.Form M]

theorem not_isNamed_of_mem_temps (store : Store) :
    ∀ temp ∈ [store.modelTemp, store.scalerTemp], ¬Location.IsNamed temp := by
  intro temp htemp
  rcases List.mem_cons.mp htemp with rfl | htemp
  · exact store.not_isNamed_modelTemp
  · obtain rfl := List.mem_singleton.mp htemp
    exact store.not_isNamed_scalerTemp

/-- A save that fails changes nothing, whichever two paths the store has, whatever the disk holds
and whichever operation the device refuses. Both paths hold the bytes that they held, every other
file and folder that a path can lead to is still there, and no file is left that was not there
before. What is new are folders on the way to the two files, without files in them. -/
theorem save_error_changes_nothing (store : Store) (blob : Blob M) (statistics : Statistics α)
    (disk disk' : Disk) (failure : Failure α)
    (h : (store.save blob statistics).run disk = (.error failure, disk')) :
    (∀ path ∈ [store.model, store.scaler],
      disk'.tree.contentAt? path.place = disk.tree.contentAt? path.place ∧
      ∀ place, disk.tree.resolve path = .ok place →
        (disk'.tree.read path).toOption = (disk.tree.read path).toOption) ∧
    (∀ place : Location, place.IsNamed → ∀ entry, disk.tree.find? place = some entry →
      disk'.tree.find? place = some entry) ∧
    (∀ place content, disk'.tree.find? place = some (.file content) →
      disk.tree.find? place = some (.file content)) ∧
    ∀ place : Location, place.IsNamed → disk.tree.find? place = none →
      disk'.tree.find? place ≠ none →
        disk'.tree.find? place = some .folder ∧ place ∈ store.folders ∧
          (disk.tree.IsClosed → ∀ inner : Location, inner.up = place → ∀ content,
            disk'.tree.find? inner ≠ some (.file content)) := by
  have hundone := (ends_replace store _ _ disk.tree).of_run_eq_error h
  have htemps := store.not_isNamed_of_mem_temps
  refine ⟨?_, fun place hplace entry ↦ hundone.find?_eq_some htemps hplace, hundone.file_before, ?_⟩
  · intro path hpath
    have hsplit : path.IsSplit := by
      rcases List.mem_cons.mp hpath with rfl | hpath
      · exact store.isSplit_model
      · obtain rfl := List.mem_singleton.mp hpath
        exact store.isSplit_scaler
    exact ⟨hundone.contentAt?_eq htemps hsplit.isNamed_place,
      fun place ↦ hundone.toOption_read_eq htemps hsplit⟩
  · intro place hplace hnone hsome
    obtain ⟨hfolder, hmem⟩ :=
      hundone.new_folder (fun hmem ↦ htemps place hmem hplace) hnone hsome
    exact ⟨hfolder, hmem, fun hclosed inner hinner content ↦
      hundone.no_file_in_new_folder hclosed hnone hinner content⟩

/-- A disk with both files, whose device lets the statistics be moved to their place and refuses to
move the model. -/
def refusedDisk : Disk where
  tree := ⟨[(["m.json"], .file "old model".toUTF8), (["s.json"], .file "old statistics".toUTF8)]⟩
  refusals := List.replicate 10 false ++ [true]

theorem save_refused_move_changes_nothing :
    ∃ disk', (save ⟨"m.json", "s.json"⟩ (⟨["new model"], ["value"], default⟩ : Blob (List String))
        (⟨#[0], #[1]⟩ : Statistics Float)).run refusedDisk =
          (.error (.persistence "m.json" (.file .device)), disk') ∧
      disk'.tree.contentAt? ["m.json"] = some "old model".toUTF8 ∧
      disk'.tree.contentAt? ["s.json"] = some "old statistics".toUTF8 := by
  obtain ⟨disk', hrun⟩ : ∃ disk', (save ⟨"m.json", "s.json"⟩
      (⟨["new model"], ["value"], default⟩ : Blob (List String))
      (⟨#[0], #[1]⟩ : Statistics Float)).run refusedDisk =
        (.error (.persistence "m.json" (.file .device)), disk') := ⟨_, Prod.ext rfl rfl⟩
  have h := (save_error_changes_nothing _ _ _ _ _ _ hrun).1
  have hmodel := (h (model ⟨"m.json", "s.json"⟩) List.mem_cons_self).1
  have hscaler := (h (scaler ⟨"m.json", "s.json"⟩) (List.mem_cons_of_mem _ List.mem_cons_self)).1
  exact ⟨disk', hrun, hmodel, hscaler⟩

end Store

end OutlierScoring
