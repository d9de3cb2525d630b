import OutlierScoring.Proofs.Files.Ends
import OutlierScoring.Proofs.Files.Places

/-!
# Writing files beside their places

What the parts of a replacement of files do to a tree, whether they succeed or fail. Two relations
between the tree before and the tree after carry the proofs: `Tree.Grown`, where nothing but new
folders was added, apart from some places that are looked at separately, and `Tree.Undone`, where
moreover no file is left that was not there before.

Each part has one lemma (`ends_stage`, `ends_keeping`, `ends_commit`, `ends_restore`), which a
composed step is described with by the rules for `Ends`.
-/

namespace OutlierScoring.Files

namespace Tree

variable {before mid after : Tree} {trail others others' : List Location} {place temp : Location}

/-- Apart from some places, the trees differ at most in new folders on a trail. -/
def Grown (trail others : List Location) (before after : Tree) : Prop :=
  ∀ place ∉ others, after.find? place = before.find? place ∨
    before.find? place = none ∧ after.find? place = some .folder ∧ place ∈ trail

/-- Nothing that was begun is left, apart from folders: every file is one from before, and apart
from some places for temporary files everything from before is still there. -/
structure Undone (trail temps : List Location) (before after : Tree) : Prop where
  grown : Grown trail temps before after
  /-- No file is new. -/
  file_before : ∀ place content, after.find? place = some (.file content) →
    before.find? place = some (.file content)

theorem Grown.refl (trail others : List Location) (tree : Tree) : Grown trail others tree tree :=
  fun _ _ ↦ .inl rfl

theorem Grown.trans (h : Grown trail others before mid) (h' : Grown trail others' mid after) :
    Grown trail (others ++ others') before after := by
  intro place hplace
  obtain ⟨ho, ho'⟩ := not_or.mp (mt List.mem_append.mpr hplace)
  rcases h' place ho' with heq | ⟨hnone, hfolder, hmem⟩
  · rw [heq]
    exact h place ho
  · rcases h place ho with heq | ⟨-, hmid, -⟩
    · exact .inr ⟨heq ▸ hnone, hfolder, hmem⟩
    · rw [hmid] at hnone
      exact absurd hnone nofun

theorem Grown.mono {trail' : List Location} (h : Grown trail others before after)
    (htrail : ∀ place ∈ trail, place ∈ trail') (hothers : ∀ place ∈ others, place ∈ others') :
    Grown trail' others' before after := by
  intro place hplace
  rcases h place fun hmem ↦ hplace (hothers place hmem) with heq | ⟨hnone, hfolder, hmem⟩
  · exact .inl heq
  · exact .inr ⟨hnone, hfolder, htrail place hmem⟩

/-- What a place held it holds in a grown tree. -/
theorem Grown.find?_eq_some {entry : Entry} (h : Grown trail others before after)
    (hplace : place ∉ others) (hentry : before.find? place = some entry) :
    after.find? place = some entry := by
  rcases h place hplace with heq | ⟨hnone, -, -⟩
  · rw [heq, hentry]
  · rw [hentry] at hnone
    exact absurd hnone nofun

theorem Grown.find?_eq_file {content : ByteArray} (h : Grown trail others before after)
    (hplace : place ∉ others) (hfile : after.find? place = some (.file content)) :
    before.find? place = some (.file content) := by
  rcases h place hplace with heq | ⟨-, hfolder, -⟩
  · rw [← heq, hfile]
  · rw [hfolder] at hfile
    exact absurd hfile nofun

theorem grown_makeFolders (tree : Tree) (path : Path) :
    Grown path.trail [] tree (tree.makeFolders path).2 :=
  fun place _ ↦ tree.find?_makeFolders path place

theorem grown_set (tree : Tree) (place : Location) (entry : Entry) :
    Grown trail [place] tree (tree.set place entry) :=
  fun _ hother ↦ .inl (find?_set_of_ne tree entry fun h ↦ hother (List.mem_singleton.mpr h))

theorem grown_erase (tree : Tree) (place : Location) :
    Grown trail [place] tree (tree.erase place) :=
  fun _ hother ↦ .inl (find?_erase_of_ne tree fun h ↦ hother (List.mem_singleton.mpr h))

theorem Grown.undone (h : Grown trail [] before after) : Undone trail [] before after where
  grown := h
  file_before _ _ := h.find?_eq_file List.not_mem_nil

theorem Undone.mono {trail' : List Location} (h : Undone trail others before after)
    (htrail : ∀ place ∈ trail, place ∈ trail') (hothers : ∀ place ∈ others, place ∈ others') :
    Undone trail' others' before after where
  grown := h.grown.mono htrail hothers
  file_before := h.file_before

theorem Undone.congr {after' : Tree} (h : Undone trail others before after)
    (hsame : ∀ place, after'.find? place = after.find? place) :
    Undone trail others before after' where
  grown place hplace := by
    rw [hsame]
    exact h.grown place hplace
  file_before place content hfile := h.file_before place content (hsame place ▸ hfile)

/-- Dropping the one file that was begun before a step that came to nothing. -/
theorem Undone.erase (htemp : temp.isGiven = false) (h : Grown trail [temp] before mid)
    (h' : Undone trail others mid after) :
    Undone trail (temp :: others) before (after.erase temp) where
  grown := by
    have hgrown := (h.trans h'.grown).trans (grown_erase after temp)
    exact hgrown.mono (fun _ ↦ id) (by grind)
  file_before := by
    intro place content hfile
    by_cases hplace : place = temp
    · rw [hplace, find?_erase_self after htemp] at hfile
      exact absurd hfile nofun
    · rw [find?_erase_of_ne after hplace] at hfile
      exact h.find?_eq_file (by simpa using hplace) (h'.file_before place content hfile)

end Tree

open Files.Tree

/-! ### Staging -/

/-- A name for a file that no path leads to. -/
def IsPrivate (name : String) : Prop := name ≠ "/" ∧ '/' ∈ name.toList

theorem IsPrivate.not_isNamed {name : String} (h : IsPrivate name) (folder : Location) :
    ¬Location.IsNamed (name :: folder) := by
  intro hnamed
  rcases hnamed name List.mem_cons_self with hroot | hslash
  · exact h.1 hroot
  · exact hslash h.2

variable {ε ε' β : Type} {tree before mid : Tree} {path : Path} {name : String}
  {content : ByteArray} {good : β → Tree → Prop} {trail others : List Location} {temp : Location}

theorem ends_makeFolders :
    Ends (Disk.makeFolders path) tree (fun _ after ↦ Grown path.trail [] tree after)
      (Undone path.trail [] tree) := by
  refine ends_attempt_bind (Grown.refl _ _ tree).undone (ends_get_bind fun refusals s ↦ ?_)
  have hgrown := grown_makeFolders tree path
  rw [run_bind]
  rcases h : tree.makeFolders path with ⟨_ | fault, after⟩ <;> rw [h] at hgrown
  · exact hgrown
  · exact hgrown.undone

/-- A staged file is dropped where the step that needs it fails. -/
theorem ends_keeping {staged : Staged} {step : DiskM ε β} {bad : Tree → Prop}
    (hstep : Ends step tree good fun between ↦ bad (between.erase staged.place)) :
    Ends (Disk.keeping staged step) tree good bad := by
  refine .tryCatch hstep ?_
  intro fault between hbetween
  have hdiscard : Ends (Disk.discard staged : DiskM ε Unit) between (fun _ after ↦ bad after) bad :=
    ends_modify fun _ ↦ hbetween
  exact hdiscard.bind fun _ after hafter ↦ ends_throw hafter

/-- Writing a content into a file that was begun. -/
theorem ends_write {staged : Staged} (htemp : staged.place.isGiven = false)
    (hbegun : Grown trail [staged.place] before tree) :
    Ends (Disk.keeping staged do
        Disk.attempt
        Disk.change fun tree ↦ .ok (tree.set staged.place (.file content))
        Disk.attempt
        return staged)
      tree
      (fun staged' after ↦ staged = staged' ∧ Grown trail [staged.place] before after ∧
        after.find? staged.place = some (.file content))
      (Undone trail [staged.place] before) := by
  refine ends_keeping (ends_attempt_bind (.erase htemp hbegun (Grown.refl _ _ _).undone) ?_)
  refine ends_change_bind (fun after h ↦ ?_) nofun
  obtain rfl := Except.ok.inj h
  have hwritten : Grown trail [staged.place] before (tree.set staged.place (.file content)) :=
    (hbegun.trans (grown_set tree _ _)).mono (fun _ ↦ id) (by simp)
  refine ends_attempt_bind (.erase htemp hwritten (Grown.refl _ _ _).undone) (ends_pure ?_)
  exact ⟨rfl, hwritten, find?_set_self _ _ htemp⟩

theorem ends_stage (hname : IsPrivate name) :
    Ends (Disk.stage path name content) tree
      (fun staged after ↦ ⟨name :: path.folder.place⟩ = staged ∧
        Grown path.folder.trail [name :: path.folder.place] tree after ∧
        after.find? (name :: path.folder.place) = some (.file content))
      (Undone path.folder.trail [name :: path.folder.place] tree) := by
  have htemp : Location.isGiven (name :: path.folder.place) = false :=
    Location.isGiven_eq_false (hname.not_isNamed _)
  -- Until the file is begun, what is left are folders.
  have hfail : ∀ between, Undone path.folder.trail [] tree between →
      Undone path.folder.trail [name :: path.folder.place] tree between :=
    fun between h ↦ h.mono (fun _ ↦ id) nofun
  refine .bind (ends_makeFolders.imp (fun _ _ ↦ id) hfail) fun _ grown hgrown ↦ ?_
  have hbad := hfail grown hgrown.undone
  refine ends_attempt_bind hbad (ends_look_bind (fun folder hfolder ↦ ?_) fun _ _ ↦ hbad)
  obtain rfl := resolve_eq_ok hfolder
  refine ends_look_bind (fun _ _ ↦ ends_change_bind (fun begun h ↦ ?_) nofun) fun _ _ ↦ hbad
  obtain rfl := Except.ok.inj h
  exact ends_write htemp ((hgrown.trans (grown_set grown _ _)).mono (fun _ ↦ id) (by simp))

/-! ### Moving a staged file to its place -/

/-- What a move does: the file is gone from where it was staged and stands at the place of the
path, where a file or nothing was. -/
structure Moved (source : Location) (path : Path) (before after : Tree) : Prop where
  resolve : before.resolve path = .ok path.place
  not_folder : before.find? path.place ≠ some .folder
  eq_set : ∃ entry, before.find? source = some entry ∧
    after = (before.erase source).set path.place entry

theorem ends_commit {staged : Staged} :
    Ends (Disk.commit staged path) tree (fun _ after ↦ Moved staged.place path tree after)
      (fun after ↦ tree = after) := by
  refine ends_attempt_bind rfl (ends_change (fun after h ↦ ?_) fun _ _ ↦ rfl)
  obtain ⟨entry, hresolve, hfolder, hentry, rfl⟩ := move_eq_ok h
  exact ⟨hresolve, hfolder, entry, hentry, rfl⟩

namespace Moved

variable {source : Location} {after : Tree} {place : Location}

theorem isGiven_place (h : Moved source path before after) : path.place.isGiven = false :=
  isGiven_of_find?_ne_folder h.not_folder

theorem find?_place (h : Moved source path before after) :
    after.find? path.place = before.find? source := by
  obtain ⟨entry, hentry, rfl⟩ := h.eq_set
  rw [find?_set_self _ _ h.isGiven_place, hentry]

theorem find?_source (h : Moved source path before after) (hne : source ≠ path.place)
    (hgiven : source.isGiven = false) : after.find? source = none := by
  obtain ⟨entry, -, rfl⟩ := h.eq_set
  rw [find?_set_of_ne _ _ hne, find?_erase_self _ hgiven]

theorem find?_of_ne (h : Moved source path before after) (hsource : place ≠ source)
    (hplace : place ≠ path.place) : after.find? place = before.find? place := by
  obtain ⟨entry, -, rfl⟩ := h.eq_set
  rw [find?_set_of_ne _ _ hplace, find?_erase_of_ne _ hsource]

/-- A move of a file takes no folder away. -/
theorem keepsFolders (h : Moved source path before after)
    (hfile : before.find? source ≠ some .folder) : before.KeepsFolders after := by
  intro place _ hfolder
  have hsource : place ≠ source := fun heq ↦ hfile (heq ▸ hfolder)
  have hplace : place ≠ path.place := fun heq ↦ h.not_folder (heq ▸ hfolder)
  rw [h.find?_of_ne hsource hplace, hfolder]

/-- Away from its target a move does nothing but take the file from where it was. -/
theorem find?_eq_erase (h : Moved source path before after) (hne : source ≠ path.place)
    (hgiven : source.isGiven = false) (hplace : place ≠ path.place) :
    after.find? place = (before.erase source).find? place := by
  by_cases hsource : place = source
  · rw [hsource, h.find?_source hne hgiven, find?_erase_self _ hgiven]
  · rw [h.find?_of_ne hsource hplace, find?_erase_of_ne _ hsource]

end Moved

/-! ### Taking a move back -/

/-- What is remembered of a path before a move to it: the content of the file there, if there is
one. -/
def Remembers (tree : Tree) (path : Path) (previous : Option ByteArray) : Prop :=
  match previous with
  | some content => tree.read path = .ok content
  | none => tree.isFile path = false

/-- After a move and its taking back only the staged file is missing. -/
theorem ends_restore {source : Location} {previous : Option ByteArray} {after : Tree}
    (hpath : path.IsSplit) (hmoved : Moved source path before after)
    (hfile : before.find? source = some (.file content)) (hne : source ≠ path.place)
    (hprevious : Remembers before path previous) {bad : Tree → Prop} :
    Ends (Disk.restore path previous : DiskM ε Unit) after
      (fun _ back ↦ ∀ place, back.find? place = (before.erase source).find? place) bad := by
  have hgiven : source.isGiven = false :=
    isGiven_of_find?_ne_folder (by rw [hfile]; exact nofun)
  have hresolve : after.resolve path = .ok path.place :=
    resolve_of_keepsFolders hpath (hmoved.keepsFolders (by rw [hfile]; exact nofun)) hmoved.resolve
  have hthere : after.find? path.place = some (.file content) := hmoved.find?_place.trans hfile
  have hplace : (before.erase source).find? path.place = before.find? path.place :=
    find?_erase_of_ne _ hne.symm
  refine ends_modify ?_
  intro refusals place
  -- Without a previous file the place was empty: a folder there would have refused the move.
  rcases previous with _ | old
  · have hremove : after.remove path = .ok (after.erase path.place) := by
      simp [remove, hresolve, hthere, bind, Except.bind, pure, Except.pure]
    simp only [hremove]
    by_cases heq : place = path.place
    · rw [heq, find?_erase_self _ hmoved.isGiven_place, hplace]
      rcases hbefore : before.find? path.place with _ | ⟨old | _⟩
      · rfl
      · have hread := isFile_iff_exists_read.mpr ⟨old, read_of_resolve hmoved.resolve hbefore⟩
        exact absurd hread (Bool.eq_false_iff.mp hprevious)
      · exact absurd hbefore hmoved.not_folder
    · rw [find?_erase_of_ne _ heq, hmoved.find?_eq_erase hne hgiven heq]
  · have hwrite : after.write path old = .ok (after.set path.place (.file old)) := by
      simp [write, hresolve, hthere, bind, Except.bind, pure, Except.pure]
    simp only [hwrite]
    by_cases heq : place = path.place
    · rw [heq, find?_set_self _ _ hmoved.isGiven_place, hplace, (read_eq_ok hprevious).2]
    · rw [find?_set_of_ne _ _ heq, hmoved.find?_eq_erase hne hgiven heq]

end OutlierScoring.Files
