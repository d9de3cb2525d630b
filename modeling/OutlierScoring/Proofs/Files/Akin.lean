import OutlierScoring.Proofs.Files.Staging
import OutlierScoring.Proofs.Files.Twins

/-!
# Writing over what was there

Two trees are akin if they hold the same but for two things: what is in the files at some places,
where a file may also be missing, and folders at some other places, which may be missing in one of
them. Writing to these places goes the same way on both trees, as long as no file stands where a
folder has to be. Each part of a replacement takes away a difference: making folders makes up for
the missing ones (`Tree.Akin.makeFolders`), and staged files are new on both sides (`agree_stage`)
until they are moved over the old ones (`agree_commit`).

Other than for twins, what is left behind by a step that fails is not compared.
-/

namespace OutlierScoring.Files

namespace Path

theorem place_mem_trailFrom {names : List String} (h : names ≠ []) (place : Location) :
    names.foldl Location.toward place ∈ trailFrom place names := by
  induction names generalizing place with
  | nil => exact absurd rfl h
  | cons name names ih =>
    rw [List.foldl_cons, trailFrom]
    rcases names with _ | ⟨next, names⟩
    · exact List.mem_cons_self
    · exact List.mem_cons_of_mem _ (ih nofun _)

theorem place_mem_trail {path : Path} (h : path.names ≠ []) : path.place ∈ path.trail :=
  place_mem_trailFrom h _

theorem trailFrom_append (place : Location) (first second : List String) :
    trailFrom place (first ++ second) =
      trailFrom place first ++ trailFrom (first.foldl Location.toward place) second := by
  induction first generalizing place with
  | nil => rfl
  | cons name first ih =>
    rw [List.cons_append, trailFrom, trailFrom, ih]
    rfl

theorem isNamed_of_mem_trailFrom {names : List String} {place other : Location}
    (hplace : place.IsNamed) (hnames : ∀ name ∈ names, '/' ∉ name.toList)
    (h : other ∈ trailFrom place names) : other.IsNamed := by
  induction names generalizing place with
  | nil => cases h
  | cons name names ih =>
    have hnext := hplace.toward (hnames name List.mem_cons_self)
    rcases List.mem_cons.mp h with rfl | h
    · exact hnext
    · exact ih hnext (fun name hname ↦ hnames name (List.mem_cons_of_mem _ hname)) h

theorem IsSplit.isNamed_of_mem_trail {path : Path} (h : path.IsSplit) {place : Location}
    (hplace : place ∈ path.trail) : place.IsNamed :=
  isNamed_of_mem_trailFrom path.isNamed_start h hplace

theorem isGiven_start (path : Path) : (Tree.start path).isGiven = true := by
  rw [Tree.start]
  split <;> rfl

/-- The names of a path are followed from where it starts, and then from all places on its way but
the last. -/
theorem mem_dropLast_start_trail {path : Path} (h : path.names ≠ []) {place : Location} :
    place ∈ (Tree.start path :: path.trail).dropLast ↔
      place = Tree.start path ∨ place ∈ path.trail.dropLast := by
  obtain ⟨name, names, hnames⟩ := List.exists_cons_of_ne_nil h
  rw [trail, hnames, trailFrom, List.dropLast_cons_cons, List.mem_cons]

/-- The folder that a path puts its last name into lies on the way of the path. -/
theorem mem_trail_of_mem_folder {path : Path} {place : Location} (h : place ∈ path.folder.trail) :
    place.isGiven = true ∨ place ∈ path.trail.dropLast := by
  have hnames := List.takeWhile_append_dropWhile (p := isIdle) (l := path.names.reverse)
  rw [folder] at h
  split at h
  · obtain rfl := List.mem_singleton.mp h
    exact .inl rfl
  · split at h <;> obtain rfl := List.mem_singleton.mp h <;> exact .inl rfl
  · rename_i last names hne hdrop
    right
    rw [hdrop] at hnames
    have hsplit : path.names =
        names.reverse ++ last :: (path.names.reverse.takeWhile isIdle).reverse := by
      simpa using congrArg List.reverse hnames.symm
    have hrest := place_mem_trailFrom (List.cons_ne_nil last
      (path.names.reverse.takeWhile isIdle).reverse) (names.reverse.foldl Location.toward
        (Tree.start path))
    rw [trail, hsplit, trailFrom_append,
      List.dropLast_append_of_ne_nil (List.ne_nil_of_mem hrest)]
    exact List.mem_append_left _ h

theorem IsSplit.isNamed_of_mem_folder {path : Path} (h : path.IsSplit) {place : Location}
    (hplace : place ∈ path.folder.trail) : place.IsNamed := by
  rcases mem_trail_of_mem_folder hplace with hgiven | hmem
  · exact Location.isNamed_of_isGiven hgiven
  · exact h.isNamed_of_mem_trail (List.dropLast_subset _ hmem)

end Path

namespace Tree

variable {files folders : Location → Prop} {temps : List Location} {tree twin : Tree}
  {path : Path} {place : Location}

/-! ### Following paths -/

theorem foldlM_follow_congr {names : List String} {start : Location}
    (h : ∀ place ∈ (start :: Path.trailFrom start names).dropLast,
      tree.requireFolder place = twin.requireFolder place) :
    names.foldlM tree.follow start = names.foldlM twin.follow start := by
  induction names generalizing start with
  | nil => rfl
  | cons name names ih =>
    rw [Path.trailFrom, List.dropLast_cons_cons] at h
    have hfollow : tree.follow start name = twin.follow start name := by
      rw [follow, follow, h start List.mem_cons_self]
    rw [List.foldlM_cons, List.foldlM_cons, hfollow]
    rcases hnext : twin.follow start name with fault | next
    · rfl
    · obtain ⟨-, rfl⟩ := follow_eq_ok hnext
      exact ih fun place hplace ↦ h place (List.mem_cons_of_mem _ hplace)

theorem find?_of_foldlM_follow {names : List String} {start : Location}
    (h : names.foldlM tree.follow start = .ok place) :
    ∀ other ∈ (start :: Path.trailFrom start names).dropLast, tree.find? other = some .folder := by
  induction names generalizing start with
  | nil => exact nofun
  | cons name names ih =>
    rw [Path.trailFrom, List.dropLast_cons_cons]
    rw [List.foldlM_cons] at h
    rcases hnext : tree.follow start name with fault | next
    · rw [hnext] at h
      cases h
    rw [hnext] at h
    obtain ⟨hstart, rfl⟩ := follow_eq_ok hnext
    intro other hother
    rcases List.mem_cons.mp hother with rfl | hother
    · exact hstart
    · exact ih h other hother

theorem names_ne_nil_of_resolve (h : tree.resolve path = .ok place) : path.names ≠ [] := by
  intro hnames
  simp only [resolve, hnames] at h
  split at h <;> cases h

/-- Where a path leads depends on the folders on its way only. -/
theorem resolve_congr
    (h : ∀ place ∈ path.trail.dropLast, tree.requireFolder place = twin.requireFolder place) :
    tree.resolve path = twin.resolve path := by
  rw [resolve, resolve]
  split
  · rfl
  split
  · rfl
  rename_i hnames
  refine foldlM_follow_congr fun place hplace ↦ ?_
  rcases (Path.mem_dropLast_start_trail (by simpa using hnames)).mp hplace with rfl | hplace
  · simp only [requireFolder, find?, path.isGiven_start]
    rfl
  · exact h place hplace

/-- A path that can be followed leads through folders. -/
theorem find?_of_resolve (h : tree.resolve path = .ok place) :
    ∀ other ∈ path.trail.dropLast, tree.find? other = some .folder := by
  rw [resolve] at h
  split at h
  · cases h
  split at h
  · cases h
  rename_i hnames
  intro other hother
  exact find?_of_foldlM_follow h other
    ((Path.mem_dropLast_start_trail (by simpa using hnames)).mpr (.inr hother))

/-! ### Akin trees -/

/-- The trees hold the same, but at `files` and in `temps`, where either of them has a file or
nothing, and at `folders`, where either of them has a folder or nothing. In `temps` both have a
file. -/
structure Akin (files folders : Location → Prop) (temps : List Location) (tree twin : Tree) :
    Prop where
  differ (place : Location) : tree.find? place = twin.find? place ∨
    ((files place ∨ place ∈ temps) ∧
      tree.find? place ≠ some .folder ∧ twin.find? place ≠ some .folder) ∨
    (folders place ∧ tree.contentAt? place = none ∧ twin.contentAt? place = none)
  staged : ∀ temp ∈ temps, ∃ content content', tree.find? temp = some (.file content) ∧
    twin.find? temp = some (.file content')

namespace Akin

variable (h : Akin files folders temps tree twin)

include h

theorem find?_eq_folder_iff (hplace : ¬folders place) :
    tree.find? place = some .folder ↔ twin.find? place = some .folder := by
  rcases h.differ place with heq | ⟨-, hne, hne'⟩ | ⟨hfolders, -⟩
  · rw [heq]
  · exact ⟨fun heq ↦ absurd heq hne, fun heq ↦ absurd heq hne'⟩
  · exact absurd hfolders hplace

theorem requireFolder_eq (hfiles : ¬files place) (htemps : place ∉ temps)
    (hfolders : ¬folders place) : tree.requireFolder place = twin.requireFolder place := by
  rcases h.differ place with heq | ⟨hfile | htemp, -⟩ | ⟨hfolder, -⟩
  · rw [requireFolder, requireFolder, heq]
  · exact absurd hfile hfiles
  · exact absurd htemp htemps
  · exact absurd hfolder hfolders

/-- Where a path leads is the same on both trees, if the folders on its way do not differ. -/
theorem resolve_eq (hway : ∀ other ∈ path.trail.dropLast,
      ¬files other ∧ other ∉ temps ∧ ¬folders other) :
    tree.resolve path = twin.resolve path :=
  resolve_congr fun other hother ↦
    have ⟨hfiles, htemps, hfolders⟩ := hway other hother
    h.requireFolder_eq hfiles htemps hfolders

/-- Where no folders differ there is nothing to say of them. -/
theorem of_forall_not (hfolders : ∀ place, ¬folders place) :
    Akin files (fun _ ↦ False) temps tree twin where
  differ place := by
    rcases h.differ place with heq | hfile | ⟨hfolder, -⟩
    · exact .inl heq
    · exact .inr (.inl hfile)
    · exact absurd hfolder (hfolders place)
  staged := h.staged

/-- Both trees may change at a place where they do not differ afterwards. -/
theorem update {after after' : Tree} (hplace : place ∉ temps)
    (hthere : after.find? place = after'.find? place)
    (helse : ∀ other ≠ place, after.find? other = tree.find? other)
    (helse' : ∀ other ≠ place, after'.find? other = twin.find? other) :
    Akin files folders temps after after' where
  differ other := by
    by_cases hother : other = place
    · exact .inl (hother ▸ hthere)
    · rw [contentAt?, contentAt?, helse other hother, helse' other hother]
      exact h.differ other
  staged temp htemp := by
    have hother : temp ≠ place := fun heq ↦ hplace (heq ▸ htemp)
    rw [helse temp hother, helse' temp hother]
    exact h.staged temp htemp

end Akin

/-! ### Making folders -/

/-- Where no file is in the way, a folder is made on the way unless it is there. -/
theorem exists_makeFoldersFrom_cons {start next : Location} {name : String}
    (hnext : tree.follow start name = .ok next) (hfile : tree.contentAt? next = none)
    (names : List String) :
    ∃ made : Tree, tree.makeFoldersFrom start (name :: names) = made.makeFoldersFrom next names ∧
      made.find? next = some .folder ∧ ∀ other ≠ next, made.find? other = tree.find? other := by
  rw [makeFoldersFrom, hnext]
  simp only
  rcases hfind : tree.find? next with _ | content | _
  · have hgiven : next.isGiven = false :=
      isGiven_of_find?_ne_folder (hfind ▸ (Option.some_ne_none _).symm)
    exact ⟨_, rfl, find?_set_self tree .folder hgiven,
      fun _ hother ↦ find?_set_of_ne tree .folder hother⟩
  · rw [contentAt?_eq_some_iff.mpr hfind] at hfile
    cases hfile
  · exact ⟨tree, rfl, hfind, fun _ _ ↦ rfl⟩

theorem makeFoldersFrom_of_error {start : Location} {name : String} {fault : Fault}
    (h : tree.follow start name = .error fault) (names : List String) :
    tree.makeFoldersFrom start (name :: names) = (some fault, tree) := by
  rw [makeFoldersFrom, h]

theorem makeFoldersFrom_of_file {start next : Location} {name : String} {content : ByteArray}
    (hnext : tree.follow start name = .ok next) (hfile : tree.contentAt? next = some content)
    (names : List String) :
    tree.makeFoldersFrom start (name :: names) = (some .occupied, tree) := by
  rw [makeFoldersFrom, hnext]
  simp only [contentAt?_eq_some_iff.mp hfile]

/-- Making folders keeps folders. -/
theorem find?_makeFoldersFrom_of_folder (h : tree.find? place = some .folder) (start : Location)
    (names : List String) :
    (tree.makeFoldersFrom start names).2.find? place = some .folder := by
  rcases tree.find?_makeFoldersFrom start names place with heq | ⟨hnone, -⟩
  · rw [heq, h]
  · rw [h] at hnone
    cases hnone

theorem Akin.makeFoldersFrom (h : Akin files folders temps tree twin) {start : Location}
    (hstart : tree.find? start = some .folder) (hstart' : twin.find? start = some .folder)
    {names : List String}
    (hclear : ∀ place ∈ Path.trailFrom start names, ¬files place ∧ place ∉ temps) :
    (tree.makeFoldersFrom start names).1 = (twin.makeFoldersFrom start names).1 ∧
      Akin files folders temps (tree.makeFoldersFrom start names).2
        (twin.makeFoldersFrom start names).2 ∧
      ((twin.makeFoldersFrom start names).1 = none → ∀ place ∈ Path.trailFrom start names,
        (tree.makeFoldersFrom start names).2.find? place = some .folder ∧
          (twin.makeFoldersFrom start names).2.find? place = some .folder) := by
  induction names generalizing tree twin start with
  | nil => exact ⟨rfl, h, fun _ _ hplace ↦ absurd hplace List.not_mem_nil⟩
  | cons name names ih =>
    rw [Path.trailFrom] at hclear ⊢
    have hfollow : tree.follow start name = twin.follow start name := by
      simp only [follow, requireFolder, hstart, hstart']
    rcases hnext : twin.follow start name with fault | next
    · rw [makeFoldersFrom_of_error hnext, makeFoldersFrom_of_error (hfollow.trans hnext)]
      exact ⟨rfl, h, fun hnone ↦ absurd hnone (Option.some_ne_none fault)⟩
    obtain ⟨-, rfl⟩ := follow_eq_ok hnext
    have hfollow := hfollow.trans hnext
    obtain ⟨hfiles, htemps⟩ := hclear _ List.mem_cons_self
    have hcontent : tree.contentAt? (start.toward name) = twin.contentAt? (start.toward name) := by
      rcases h.differ (start.toward name) with heq | ⟨hfile | htemp, -⟩ | ⟨-, hnone, hnone'⟩
      · rw [contentAt?, contentAt?, heq]
      · exact absurd hfile hfiles
      · exact absurd htemp htemps
      · rw [hnone, hnone']
    rcases hfile : twin.contentAt? (start.toward name) with _ | content
    · obtain ⟨made, heq, hmade, helse⟩ :=
        exists_makeFoldersFrom_cons hfollow (hcontent.trans hfile) names
      obtain ⟨made', heq', hmade', helse'⟩ := exists_makeFoldersFrom_cons hnext hfile names
      rw [heq, heq']
      -- From here on both trees have the folder, so that nothing differs there any more.
      have hakin := h.update htemps (hmade.trans hmade'.symm) helse helse'
      obtain ⟨hfault, hafter, hfolders⟩ :=
        ih hakin hmade hmade' fun place hplace ↦ hclear place (List.mem_cons_of_mem _ hplace)
      refine ⟨hfault, hafter, fun hnone place hplace ↦ ?_⟩
      rcases List.mem_cons.mp hplace with rfl | hplace
      · exact ⟨find?_makeFoldersFrom_of_folder hmade _ names,
          find?_makeFoldersFrom_of_folder hmade' _ names⟩
      · exact hfolders hnone place hplace
    · rw [makeFoldersFrom_of_file hfollow (hcontent.trans hfile),
        makeFoldersFrom_of_file hnext hfile]
      exact ⟨rfl, h, fun hnone ↦ absurd hnone (Option.some_ne_none _)⟩

/-- Folders are made on both trees or on none, and where they are made they do not differ any
more. -/
theorem Akin.makeFolders (h : Akin files folders temps tree twin)
    (hclear : ∀ place ∈ path.trail, ¬files place ∧ place ∉ temps) :
    (tree.makeFolders path).1 = (twin.makeFolders path).1 ∧
      ((twin.makeFolders path).1 = none →
        Akin files (fun place ↦ folders place ∧ place ∉ path.trail) temps
          (tree.makeFolders path).2 (twin.makeFolders path).2) := by
  rw [Tree.makeFolders, Tree.makeFolders]
  split
  · exact ⟨rfl, fun hnone ↦ absurd hnone (Option.some_ne_none _)⟩
  have hstart (t : Tree) : t.find? (start path) = some .folder := by
    rw [find?, if_pos path.isGiven_start]
  obtain ⟨hfault, hafter, hfolders⟩ := h.makeFoldersFrom (hstart tree) (hstart twin) hclear
  refine ⟨hfault, fun hnone ↦ ⟨fun place ↦ ?_, hafter.staged⟩⟩
  by_cases hplace : place ∈ path.trail
  · obtain ⟨hfolder, hfolder'⟩ := hfolders hnone place hplace
    exact .inl (hfolder.trans hfolder'.symm)
  · rcases hafter.differ place with heq | hfile | ⟨hfolder, hcontents⟩
    · exact .inl heq
    · exact .inr (.inl hfile)
    · exact .inr (.inr ⟨⟨hfolder, hplace⟩, hcontents⟩)

/-! ### Files that are staged and moved -/

/-- A file that is written to a place for staged files, with whatever content. -/
theorem Akin.setTemp (h : Akin files folders temps tree twin) {temp : Location}
    (hgiven : temp.isGiven = false) (content content' : ByteArray) :
    Akin files folders (temp :: temps) (tree.set temp (.file content))
      (twin.set temp (.file content')) where
  differ place := by
    by_cases hplace : place = temp
    · subst hplace
      rw [find?_set_self _ _ hgiven, find?_set_self _ _ hgiven]
      exact .inr (.inl ⟨.inr List.mem_cons_self, nofun, nofun⟩)
    · rw [contentAt?, contentAt?, find?_set_of_ne _ _ hplace, find?_set_of_ne _ _ hplace]
      rcases h.differ place with heq | ⟨hfile, hne⟩ | hfolder
      · exact .inl heq
      · exact .inr (.inl ⟨hfile.imp id (List.mem_cons_of_mem _), hne⟩)
      · exact .inr (.inr hfolder)
  staged other hother := by
    by_cases hplace : other = temp
    · subst hplace
      exact ⟨content, content', find?_set_self _ _ hgiven, find?_set_self _ _ hgiven⟩
    · rw [find?_set_of_ne _ _ hplace, find?_set_of_ne _ _ hplace]
      exact h.staged other ((List.mem_cons.mp hother).resolve_left hplace)

/-- A staged file that is moved to a place for files. -/
theorem Akin.set_erase {temp : Location} (h : Akin files folders (temp :: temps) tree twin)
    (htemp : temp ∉ temps) (hgiven : temp.isGiven = false) (hplace : place ∉ temps)
    (hfiles : files place) (hgiven' : place.isGiven = false) (content content' : ByteArray) :
    Akin files folders temps ((tree.erase temp).set place (.file content))
      ((twin.erase temp).set place (.file content')) where
  differ other := by
    by_cases hother : other = place
    · subst hother
      rw [find?_set_self _ _ hgiven', find?_set_self _ _ hgiven']
      exact .inr (.inl ⟨.inl hfiles, nofun, nofun⟩)
    rw [contentAt?, contentAt?, find?_set_of_ne _ _ hother, find?_set_of_ne _ _ hother]
    by_cases hsource : other = temp
    · subst hsource
      rw [find?_erase_self _ hgiven, find?_erase_self _ hgiven]
      exact .inl rfl
    · rw [find?_erase_of_ne _ hsource, find?_erase_of_ne _ hsource]
      rcases h.differ other with heq | ⟨hfile, hne⟩ | hfolder
      · exact .inl heq
      · exact .inr (.inl ⟨hfile.imp id fun hmem ↦ (List.mem_cons.mp hmem).resolve_left hsource,
          hne⟩)
      · exact .inr (.inr hfolder)
  staged other hother := by
    have hsource : other ≠ temp := fun heq ↦ htemp (heq ▸ hother)
    have hne : other ≠ place := fun heq ↦ hplace (heq ▸ hother)
    rw [find?_set_of_ne _ _ hne, find?_set_of_ne _ _ hne, find?_erase_of_ne _ hsource,
      find?_erase_of_ne _ hsource]
    exact h.staged other (List.mem_cons_of_mem _ hother)

end Tree

/-! ### Steps on akin trees -/

section Steps

variable {ε β γ : Type} {files folders : Location → Prop} {temps : List Location}
  {tree twin : Tree} {path : Path} {content content' : ByteArray}

/-- The disks hold akin trees, and their devices refuse nothing. -/
def AkinDisks (files folders : Location → Prop) (temps : List Location) (disk twin : Disk) : Prop :=
  Tree.Akin files folders temps disk.tree twin.tree ∧ disk.refusals = [] ∧ twin.refusals = []

/-- Nothing is asked of disks. -/
def AnyDisks (_ _ : Disk) : Prop := True

theorem AkinDisks.attempt_bind {disk twin : Disk} (h : AkinDisks files folders temps disk twin)
    {f f' : Unit → DiskM Fault β} {good : β → β → Disk → Disk → Prop}
    (hf : Agree (f ()) (f' ()) disk twin good AnyDisks) :
    Agree (Disk.attempt >>= f) (Disk.attempt >>= f') disk twin good AnyDisks := by
  obtain ⟨tree, refusals⟩ := disk
  obtain ⟨twin, refusals'⟩ := twin
  obtain ⟨-, rfl, rfl⟩ : _ ∧ refusals = [] ∧ refusals' = [] := h
  have hattempt : Agree Disk.attempt Disk.attempt ⟨tree, []⟩ ⟨twin, []⟩
      (fun _ _ after after' ↦ ⟨tree, []⟩ = after ∧ ⟨twin, []⟩ = after') AnyDisks :=
    .of_ok rfl rfl ⟨rfl, rfl⟩
  refine hattempt.bind ?_
  rintro ⟨⟩ ⟨⟩ _ _ ⟨rfl, rfl⟩
  exact hf

theorem agree_keeping {staged : Staged} {step step' : DiskM ε β} {disk disk' : Disk}
    {good : β → β → Disk → Disk → Prop} (h : Agree step step' disk disk' good AnyDisks) :
    Agree (Disk.keeping staged step) (Disk.keeping staged step') disk disk' good AnyDisks := by
  refine h.tryCatch fun e between between' _ ↦ ?_
  have hdiscard : Agree (Disk.discard staged : DiskM ε Unit) (Disk.discard staged) between between'
      (fun _ _ ↦ AnyDisks) AnyDisks := agree_modify trivial
  exact hdiscard.bind fun _ _ _ _ _ ↦ agree_throw e trivial

theorem AkinDisks.setTemp {disk twin : Disk} (h : AkinDisks files folders temps disk twin)
    {temp : Location} (hgiven : temp.isGiven = false) (content content' : ByteArray) :
    AkinDisks files folders (temp :: temps) { disk with tree := disk.tree.set temp (.file content) }
      { twin with tree := twin.tree.set temp (.file content') } :=
  ⟨h.1.setTemp hgiven content content', h.2⟩

theorem AkinDisks.of_cons_cons {disk twin : Disk} {temp : Location}
    (h : AkinDisks files folders (temp :: temp :: temps) disk twin) :
    AkinDisks files folders (temp :: temps) disk twin :=
  ⟨⟨fun place ↦ by simpa using h.1.differ place,
    fun other hother ↦ h.1.staged other (List.mem_cons_of_mem _ hother)⟩, h.2⟩

/-- Folders on the way to a file do not differ any more when they are made. -/
theorem AkinDisks.makeFolders {disk twin : Disk} (h : AkinDisks files folders temps disk twin)
    (hclear : ∀ place ∈ path.trail, ¬files place ∧ place ∉ temps) :
    Agree (Disk.makeFolders path) (Disk.makeFolders path) disk twin
      (fun _ _ ↦ AkinDisks files (fun place ↦ folders place ∧ place ∉ path.trail) temps)
      AnyDisks := by
  refine h.attempt_bind (agree_get_bind ?_)
  obtain ⟨hfault, hakin⟩ := h.1.makeFolders hclear
  rcases hmade : disk.tree.makeFolders path with ⟨fault, after⟩
  rcases hmade' : twin.tree.makeFolders path with ⟨fault', after'⟩
  rw [hmade, hmade'] at hfault hakin
  obtain rfl : fault = fault' := hfault
  simp only
  rcases fault with _ | fault
  · exact .of_ok rfl rfl ⟨hakin rfl, h.2⟩
  · exact .of_error rfl rfl trivial

/-- The same name is staged on both disks, and the files are new. -/
theorem AkinDisks.stage {name : String} (hname : IsPrivate name) {disk twin : Disk}
    (h : AkinDisks files folders temps disk twin)
    (hclear : ∀ place ∈ path.folder.trail, ¬files place ∧ place ∉ temps) :
    Agree (Disk.stage path name content) (Disk.stage path name content') disk twin
      (fun staged staged' after after' ↦ ⟨name :: path.folder.place⟩ = staged ∧ staged = staged' ∧
        AkinDisks files (fun place ↦ folders place ∧ place ∉ path.folder.trail)
          ((name :: path.folder.place) :: temps) after after')
      AnyDisks := by
  have hgiven : Location.isGiven (name :: path.folder.place) = false :=
    Location.isGiven_eq_false (hname.not_isNamed _)
  refine (h.makeFolders hclear).bind fun _ _ made made' hmade ↦ hmade.attempt_bind ?_
  have hresolve : made.tree.resolve path.folder = made'.tree.resolve path.folder :=
    hmade.1.resolve_eq fun other hother ↦ by
      have hmem := List.dropLast_subset _ hother
      exact ⟨(hclear other hmem).1, (hclear other hmem).2, fun hfolder ↦ hfolder.2 hmem⟩
  refine agree_look_bind hresolve (fun folder hfolder ↦ ?_) trivial
  have hmem := Path.place_mem_trail (Tree.names_ne_nil_of_resolve hfolder)
  obtain rfl := Tree.resolve_eq_ok hfolder
  have hrequire := hmade.1.requireFolder_eq (hclear _ hmem).1 (hclear _ hmem).2
    fun hfolder ↦ hfolder.2 hmem
  refine agree_look_bind hrequire (fun _ _ ↦ agree_change_bind rfl rfl (agree_keeping ?_)) trivial
  -- The file is begun without a content, so that it is set twice.
  have hbegun := hmade.setTemp hgiven ⟨#[]⟩ ⟨#[]⟩
  have hwritten := (hbegun.setTemp hgiven content content').of_cons_cons
  exact hbegun.attempt_bind (agree_change_bind rfl rfl
    (hwritten.attempt_bind (agree_pure ⟨rfl, rfl, hwritten⟩)))

/-- Where the folders are there, both staged files are moved or none of them. -/
theorem AkinDisks.commit {staged : Staged} {disk twin : Disk}
    (h : AkinDisks files (fun _ ↦ False) (staged.place :: temps) disk twin)
    (htemp : staged.place ∉ temps) (hnamed : ¬staged.place.IsNamed)
    (htemps : ∀ temp ∈ temps, ¬temp.IsNamed) (hpath : path.IsSplit)
    (hfiles : path.place.isGiven = false → files path.place)
    (hway : ∀ other ∈ path.trail.dropLast, ¬files other) :
    Agree (Disk.commit staged path) (Disk.commit staged path) disk twin
      (fun _ _ ↦ AkinDisks files (fun _ ↦ False) temps) AnyDisks := by
  refine h.attempt_bind (agree_change ?_)
  have hresolve : disk.tree.resolve path = twin.tree.resolve path := by
    refine h.1.resolve_eq fun other hother ↦ ⟨hway other hother, fun hmem ↦ ?_, id⟩
    have hother := hpath.isNamed_of_mem_trail (List.dropLast_subset _ hother)
    rcases List.mem_cons.mp hmem with rfl | hmem
    · exact hnamed hother
    · exact htemps other hmem hother
  rcases hplace : twin.tree.resolve path with fault | place
  · exact .inr ⟨fault, Tree.move_of_error (hresolve.trans hplace), Tree.move_of_error hplace,
      trivial⟩
  obtain rfl := Tree.resolve_eq_ok hplace
  rw [Tree.move_of_resolve hplace, Tree.move_of_resolve (hresolve.trans hplace)]
  have hfolder : disk.tree.find? path.place = some .folder ↔
      twin.tree.find? path.place = some .folder := h.1.find?_eq_folder_iff id
  by_cases hthere : twin.tree.find? path.place = some .folder
  · exact .inr ⟨.isFolder, if_pos (hfolder.mpr hthere), if_pos hthere, trivial⟩
  · obtain ⟨content, content', hfile, hfile'⟩ := h.1.staged staged.place List.mem_cons_self
    rw [if_neg hthere, if_neg (mt hfolder.mp hthere), hfile, hfile']
    have hgiven := Tree.isGiven_of_find?_ne_folder hthere
    exact .inl ⟨_, _, rfl, rfl, h.1.set_erase htemp (Location.isGiven_eq_false hnamed)
      (fun hmem ↦ htemps _ hmem hpath.isNamed_place) (hfiles hgiven) hgiven content content', h.2⟩

end Steps

end OutlierScoring.Files
