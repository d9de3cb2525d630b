import OutlierScoring.Files.Disk

/-!
# The places that paths lead to

Where a path leads does not depend on the tree: if it leads anywhere in a tree, then to
`Path.place`. The tree only has a say in whether the path can be followed, and the more folders
there are the more paths can (`Tree.resolve_of_keepsFolders`).

Staged files stand at places that no path leads to, since their names hold a slash. `IsNamed` tells
the two kinds of places apart.
-/

namespace OutlierScoring.Files

namespace Location

/-- The location that a name leads to from a folder, if it can be followed. -/
def toward (place : Location) (name : String) : Location :=
  if Path.isIdle name then place else if name = ".." then place.up else name :: place

/-- No name of the location holds a slash, other than the name of the root. -/
def IsNamed (place : Location) : Prop := ∀ name ∈ place, name = "/" ∨ '/' ∉ name.toList

theorem IsNamed.up {place : Location} (h : place.IsNamed) : place.up.IsNamed := by
  unfold Location.up
  split
  · intro name hname
    obtain rfl := List.mem_singleton.mp hname
    exact .inr (by decide)
  · exact h
  · intro name hname
    split at hname
    · rcases List.mem_cons.mp hname with rfl | hname
      · exact h _ List.mem_cons_self
      · exact h _ hname
    · exact h _ (List.mem_cons_of_mem _ hname)

theorem IsNamed.toward {place : Location} (h : place.IsNamed) {name : String}
    (hname : '/' ∉ name.toList) : (place.toward name).IsNamed := by
  rw [Location.toward]
  split
  · exact h
  split
  · exact h.up
  · intro other hother
    rcases List.mem_cons.mp hother with rfl | hother
    · exact .inr hname
    · exact h _ hother

/-- The folders that are always there have names. -/
theorem isNamed_of_isGiven {place : Location} (h : place.isGiven = true) : place.IsNamed := by
  rw [isGiven] at h
  simp only [Bool.or_eq_true, beq_iff_eq, List.all_eq_true] at h
  rcases h with rfl | h
  · exact fun name hname ↦ .inl (List.mem_singleton.mp hname)
  · intro name hname
    obtain rfl := h name hname
    exact .inr (by decide)

theorem isGiven_eq_false {place : Location} (h : ¬place.IsNamed) : place.isGiven = false :=
  Bool.eq_false_iff.mpr fun hgiven ↦ h (isNamed_of_isGiven hgiven)

end Location

namespace Path

/-- The location that the path leads to, where it can be followed. -/
def place (path : Path) : Location := path.names.foldl Location.toward (Tree.start path)

/-- The locations that names lead through, one after the other. -/
def trailFrom (place : Location) : List String → List Location
  | [] => []
  | name :: names => place.toward name :: trailFrom (place.toward name) names

/-- The locations that the path leads through. -/
def trail (path : Path) : List Location := trailFrom (Tree.start path) path.names

/-- No name of the path holds a slash. -/
def IsSplit (path : Path) : Prop := ∀ name ∈ path.names, '/' ∉ name.toList

theorem not_mem_of_mem_splitNames {text acc : List Char} (hacc : '/' ∉ acc) {name : String}
    (h : name ∈ splitNames acc text) : '/' ∉ name.toList := by
  induction acc, text using splitNames.induct with
  | case1 acc =>
    obtain rfl := List.mem_singleton.mp h
    simpa using hacc
  | case2 acc rest ih =>
    rcases List.mem_cons.mp h with rfl | h
    · simpa using hacc
    · exact ih List.not_mem_nil h
  | case3 acc c rest hc ih =>
    rw [splitNames] at h
    · exact ih (by simpa [eq_comm] using ⟨hc, hacc⟩) h
    · exact hc

theorem isSplit_ofText (text : String) : (ofText text).IsSplit := by
  intro name h
  rw [ofText] at h
  split at h
  · exact absurd h List.not_mem_nil
  · exact not_mem_of_mem_splitNames List.not_mem_nil h
  · exact not_mem_of_mem_splitNames List.not_mem_nil h

theorem isNamed_start (path : Path) : (Tree.start path).IsNamed := by
  rw [Tree.start]
  split
  · exact fun name hname ↦ .inl (List.mem_singleton.mp hname)
  · exact fun name hname ↦ absurd hname List.not_mem_nil

theorem isNamed_foldl_toward {names : List String} {place : Location} (hplace : place.IsNamed)
    (hnames : ∀ name ∈ names, '/' ∉ name.toList) : (names.foldl Location.toward place).IsNamed := by
  induction names generalizing place with
  | nil => exact hplace
  | cons name names ih =>
    exact ih (hplace.toward (hnames name List.mem_cons_self))
      fun other hother ↦ hnames other (List.mem_cons_of_mem _ hother)

theorem IsSplit.isNamed_place {path : Path} (h : path.IsSplit) : path.place.IsNamed :=
  isNamed_foldl_toward path.isNamed_start h

end Path

namespace Tree

variable {tree before after : Tree} {path : Path} {place : Location}

/-! ### Following paths -/

theorem follow_eq_ok {name : String} {next : Location} (h : tree.follow place name = .ok next) :
    tree.find? place = some .folder ∧ next = place.toward name := by
  rw [follow, requireFolder] at h
  rw [Location.toward]
  split at h
  · rename_i hplace
    refine ⟨hplace, ?_⟩
    simp only [bind, Except.bind] at h
    split at h
    · rename_i hidle
      rw [if_pos hidle]
      exact (Except.ok.inj h).symm
    · rename_i hidle
      rw [if_neg hidle]
      split at h
      · rename_i hup
        rw [if_pos hup]
        exact (Except.ok.inj h).symm
      · rename_i hup
        rw [if_neg hup]
        split at h
        · exact absurd h nofun
        · exact (Except.ok.inj h).symm
  · exact absurd h nofun
  · exact absurd h nofun

theorem resolve_eq_ok (h : tree.resolve path = .ok place) : place = path.place := by
  rw [resolve] at h
  split at h
  · exact absurd h nofun
  split at h
  · exact absurd h nofun
  rw [Path.place]
  -- The names are followed one by one, from any folder.
  generalize start path = start at h
  generalize path.names = names at h
  induction names generalizing start with
  | nil => exact (Except.ok.inj h).symm
  | cons name names ih =>
    rcases hf : tree.follow start name with fault | next
    · simp [List.foldlM_cons, hf, bind, Except.bind] at h
    · simp only [List.foldlM_cons, hf, bind, Except.bind] at h
      obtain ⟨-, rfl⟩ := follow_eq_ok hf
      exact ih _ h

/-- Every folder of the one tree that a path can lead to is one of the other. -/
def KeepsFolders (before after : Tree) : Prop :=
  ∀ place : Location, place.IsNamed → before.find? place = some .folder →
    after.find? place = some .folder

/-- Paths that can be followed can be followed where there are more folders. -/
theorem resolve_of_keepsFolders (hpath : path.IsSplit) (hkeeps : before.KeepsFolders after)
    (h : before.resolve path = .ok place) : after.resolve path = .ok place := by
  rw [resolve] at h ⊢
  split at h
  · exact absurd h nofun
  rename_i hnul
  rw [if_neg hnul]
  split at h
  · exact absurd h nofun
  rename_i hempty
  rw [if_neg hempty]
  rw [Path.IsSplit] at hpath
  -- Only the folders that names lead to are kept, so the induction carries that this is one.
  have hstart := path.isNamed_start
  generalize start path = start at h hstart ⊢
  generalize path.names = names at h hpath ⊢
  induction names generalizing start with
  | nil => exact h
  | cons name names ih =>
    rcases hf : before.follow start name with fault | next
    · simp [List.foldlM_cons, hf, bind, Except.bind] at h
    · obtain ⟨hfolder, hnext⟩ := follow_eq_ok hf
      have hfa : after.follow start name = .ok next := by
        rw [← hf]
        simp only [follow, requireFolder, hfolder, hkeeps _ hstart hfolder]
      simp only [List.foldlM_cons, hf, bind, Except.bind] at h
      simp only [List.foldlM_cons, hfa, bind, Except.bind]
      have hnamed : next.IsNamed := hnext ▸ hstart.toward (hpath name List.mem_cons_self)
      exact ih next hnamed h fun other hother ↦ hpath other (List.mem_cons_of_mem _ hother)

/-! ### What operations do to a tree -/

theorem isGiven_of_find?_ne_folder (h : tree.find? place ≠ some .folder) :
    place.isGiven = false := by
  rcases hg : place.isGiven
  · rfl
  · exact absurd (by rw [find?, if_pos hg]) h

theorem read_eq_ok {content : ByteArray} (h : tree.read path = .ok content) :
    tree.resolve path = .ok path.place ∧ tree.find? path.place = some (.file content) := by
  rw [read] at h
  rcases hr : tree.resolve path with fault | place
  · simp [hr, bind, Except.bind] at h
  · obtain rfl := resolve_eq_ok hr
    refine ⟨rfl, ?_⟩
    simp only [hr, bind, Except.bind] at h
    split at h
    · rename_i hfile
      rw [hfile, Except.ok.inj h]
    · exact absurd h nofun
    · exact absurd h nofun

theorem read_of_resolve {content : ByteArray} (h : tree.resolve path = .ok place)
    (hfile : tree.find? place = some (.file content)) : tree.read path = .ok content := by
  simp [read, h, hfile, bind, Except.bind, pure, Except.pure]

theorem isFile_iff_exists_read :
    tree.isFile path = true ↔ ∃ content, tree.read path = .ok content := by
  rw [isFile, read]
  rcases tree.resolve path with fault | place
  · simp [bind, Except.bind]
  · rcases h : tree.find? place with _ | ⟨content | _⟩ <;>
      simp [h, bind, Except.bind, pure, Except.pure, throw, throwThe, MonadExceptOf.throw]

theorem move_eq_ok {source : Location} (h : tree.move source path = .ok after) :
    ∃ entry, tree.resolve path = .ok path.place ∧ tree.find? path.place ≠ some .folder ∧
      tree.find? source = some entry ∧ after = (tree.erase source).set path.place entry := by
  rw [move] at h
  rcases hr : tree.resolve path with fault | place
  · simp [hr, bind, Except.bind] at h
  · obtain rfl := resolve_eq_ok hr
    simp only [hr, bind, Except.bind] at h
    split at h
    · exact absurd h nofun
    · exact absurd h nofun
    · rename_i entry hentry hplace
      exact ⟨entry, rfl, hplace, hentry, (Except.ok.inj h).symm⟩

/-- The content of the file at a location, if there is one. -/
def contentAt? (tree : Tree) (place : Location) : Option ByteArray :=
  match tree.find? place with
  | some (.file content) => some content
  | _ => none

theorem contentAt?_eq_some_iff {content : ByteArray} :
    tree.contentAt? place = some content ↔ tree.find? place = some (.file content) := by
  rw [contentAt?]
  rcases tree.find? place with _ | ⟨_ | _⟩ <;> simp

/-- What a path that can be followed holds is what stands at its place. -/
theorem toOption_read (h : tree.resolve path = .ok place) :
    (tree.read path).toOption = tree.contentAt? path.place := by
  obtain rfl := resolve_eq_ok h
  rw [read, contentAt?]
  simp only [h, bind, Except.bind]
  rcases tree.find? path.place with _ | ⟨_ | _⟩ <;> rfl

theorem find?_makeFoldersFrom (tree : Tree) (start : Location) (names : List String)
    (place : Location) :
    (tree.makeFoldersFrom start names).2.find? place = tree.find? place ∨
      tree.find? place = none ∧ (tree.makeFoldersFrom start names).2.find? place = some .folder ∧
        place ∈ Path.trailFrom start names := by
  induction names generalizing tree start with
  | nil => exact .inl rfl
  | cons name names ih =>
    rw [makeFoldersFrom]
    split
    · exact .inl rfl
    rename_i next hnext
    obtain ⟨-, rfl⟩ := follow_eq_ok hnext
    split
    · rename_i hfolder
      rcases ih tree (start.toward name) with h | ⟨hnone, hsome, hmem⟩
      · exact .inl h
      · exact .inr ⟨hnone, hsome, List.mem_cons_of_mem _ hmem⟩
    · exact .inl rfl
    · rename_i hmissing
      -- The folder made here stays, because later names only put folders where nothing was.
      by_cases hplace : place = start.toward name
      · subst hplace
        have hset : (tree.set (start.toward name) .folder).find? (start.toward name) =
            some .folder :=
          find?_set_self tree .folder
            (isGiven_of_find?_ne_folder (by rw [hmissing]; exact nofun))
        refine .inr ⟨hmissing, ?_, List.mem_cons_self⟩
        rcases ih (tree.set (start.toward name) .folder) (start.toward name) with h | ⟨hnone, -, -⟩
        · rw [h, hset]
        · rw [hset] at hnone
          exact absurd hnone nofun
      · have hset := find?_set_of_ne tree .folder hplace
        rcases ih (tree.set (start.toward name) .folder) (start.toward name) with
          h | ⟨hnone, hsome, hmem⟩
        · exact .inl (h.trans hset)
        · exact .inr ⟨hset ▸ hnone, hsome, List.mem_cons_of_mem _ hmem⟩

/-- Making folders puts folders where nothing was, on the way, and changes nothing else. -/
theorem find?_makeFolders (tree : Tree) (path : Path) (place : Location) :
    (tree.makeFolders path).2.find? place = tree.find? place ∨
      tree.find? place = none ∧ (tree.makeFolders path).2.find? place = some .folder ∧
        place ∈ path.trail := by
  rw [makeFolders]
  split
  · exact .inl rfl
  · exact tree.find?_makeFoldersFrom (start path) path.names place

end Tree

end OutlierScoring.Files
