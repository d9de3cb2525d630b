import OutlierScoring.Proofs.Files.Pairs
import OutlierScoring.Proofs.Files.Places

/-!
# What files contain does not matter for writing

Two trees are twins if they hold the same but for what is in the files at some places, which are
`apart`. A step that writes other contents on a twin tree fares there as it does on the tree: it
succeeds or fails for the same cause, and leaves twin trees behind (`Twins`). As with `Ends`, there
is one rule for each way of composing steps and one for each elementary step.
-/

namespace OutlierScoring.Files

variable {apart : Location → Prop}

namespace Tree

variable {tree twin : Tree} {place source : Location} {path : Path}

/-- The trees hold the same, but for what is in the files at places that are apart. -/
def SameBut (apart : Location → Prop) (tree twin : Tree) : Prop :=
  ∀ place, tree.find? place = twin.find? place ∨
    apart place ∧ ∃ content content', tree.find? place = some (.file content) ∧
      twin.find? place = some (.file content')

theorem SameBut.refl (apart : Location → Prop) (tree : Tree) : SameBut apart tree tree :=
  fun _ ↦ .inl rfl

theorem SameBut.find?_eq (h : SameBut apart tree twin) (hplace : ¬apart place) :
    tree.find? place = twin.find? place := by
  rcases h place with heq | ⟨hapart, -⟩
  · exact heq
  · exact absurd hapart hplace

theorem SameBut.mono {wider : Location → Prop} (h : SameBut apart tree twin)
    (hwider : ∀ place, apart place → wider place) : SameBut wider tree twin :=
  fun place ↦ (h place).imp_right fun hapart ↦ ⟨hwider place hapart.1, hapart.2⟩

/-! ### Following paths -/

theorem SameBut.requireFolder_eq (h : SameBut apart tree twin) (place : Location) :
    tree.requireFolder place = twin.requireFolder place := by
  rw [requireFolder, requireFolder]
  rcases h place with heq | ⟨-, content, content', hfile, hfile'⟩
  · rw [heq]
  · rw [hfile, hfile']

theorem SameBut.follow_eq (h : SameBut apart tree twin) : tree.follow = twin.follow := by
  funext place name
  rw [follow, follow, h.requireFolder_eq]

theorem SameBut.resolve_eq (h : SameBut apart tree twin) (path : Path) :
    tree.resolve path = twin.resolve path := by
  rw [resolve, resolve, h.follow_eq]

theorem SameBut.isFile_eq (h : SameBut apart tree twin) (path : Path) :
    tree.isFile path = twin.isFile path := by
  rw [isFile, isFile, h.resolve_eq]
  rcases twin.resolve path with fault | place
  · rfl
  · rcases h place with heq | ⟨-, content, content', hfile, hfile'⟩
    · simp only [heq]
    · simp only [hfile, hfile']

theorem SameBut.read_eq (h : SameBut apart tree twin) (hplace : ¬apart path.place) :
    tree.read path = twin.read path := by
  rw [read, read, h.resolve_eq]
  rcases hresolve : twin.resolve path with fault | place
  · rfl
  · obtain rfl := resolve_eq_ok hresolve
    simp only [bind, Except.bind]
    rw [h.find?_eq hplace]

/-! ### Changes -/

/-- Two entries for one place of twin trees. -/
def SameEntry (apart : Location → Prop) (place : Location) (entry entry' : Entry) : Prop :=
  entry = entry' ∨ apart place ∧ ∃ content content', entry = .file content ∧ entry' = .file content'

theorem SameBut.set (h : SameBut apart tree twin) {entry entry' : Entry}
    (hentry : SameEntry apart place entry entry') :
    SameBut apart (tree.set place entry) (twin.set place entry') := by
  intro other
  by_cases hother : other = place
  · subst hother
    -- The places that are given are folders whatever is set there.
    rcases hgiven : other.isGiven
    · rw [find?_set_self tree entry hgiven, find?_set_self twin entry' hgiven]
      rcases hentry with rfl | ⟨hapart, content, content', rfl, rfl⟩
      · exact .inl rfl
      · exact .inr ⟨hapart, content, content', rfl, rfl⟩
    · exact .inl (by simp [find?, hgiven])
  · rw [find?_set_of_ne tree entry hother, find?_set_of_ne twin entry' hother]
    exact h other

theorem SameBut.erase (h : SameBut apart tree twin) (place : Location) :
    SameBut apart (tree.erase place) (twin.erase place) := by
  intro other
  by_cases hother : other = place
  · subst hother
    rcases hgiven : other.isGiven
    · rw [find?_erase_self tree hgiven, find?_erase_self twin hgiven]
      exact .inl rfl
    · exact .inl (by simp [find?, hgiven])
  · rw [find?_erase_of_ne tree hother, find?_erase_of_ne twin hother]
    exact h other

/-- The same fault, or twin trees. -/
def SameChange (apart : Location → Prop) : Except Fault Tree → Except Fault Tree → Prop
  | .ok tree, .ok twin => SameBut apart tree twin
  | .error fault, .error fault' => fault = fault'
  | _, _ => False

theorem SameBut.makeFoldersFrom (h : SameBut apart tree twin) (place : Location)
    (names : List String) :
    (tree.makeFoldersFrom place names).1 = (twin.makeFoldersFrom place names).1 ∧
      SameBut apart (tree.makeFoldersFrom place names).2 (twin.makeFoldersFrom place names).2 := by
  induction names generalizing tree twin place with
  | nil => exact ⟨rfl, h⟩
  | cons name names ih =>
    rw [Tree.makeFoldersFrom, Tree.makeFoldersFrom, h.follow_eq]
    rcases twin.follow place name with fault | next
    · exact ⟨rfl, h⟩
    · simp only
      rcases h next with heq | ⟨-, content, content', hfile, hfile'⟩
      · rw [heq]
        rcases twin.find? next with _ | _ | _
        · exact ih (h.set (.inl rfl)) next
        · exact ⟨rfl, h⟩
        · exact ih h next
      · rw [hfile, hfile']
        exact ⟨rfl, h⟩

theorem SameBut.makeFolders (h : SameBut apart tree twin) (path : Path) :
    (tree.makeFolders path).1 = (twin.makeFolders path).1 ∧
      SameBut apart (tree.makeFolders path).2 (twin.makeFolders path).2 := by
  rw [Tree.makeFolders, Tree.makeFolders]
  split
  · exact ⟨rfl, h⟩
  · exact h.makeFoldersFrom _ _

theorem move_of_resolve {source : Location} (h : tree.resolve path = .ok place) :
    tree.move source path =
      if tree.find? place = some .folder then .error .isFolder
      else match tree.find? source with
        | none => .error .notFound
        | some entry => .ok ((tree.erase source).set place entry) := by
  rw [Tree.move, h]
  simp only [bind, Except.bind]
  rcases tree.find? place with _ | _ | _ <;> rcases tree.find? source with _ | entry <;> rfl

theorem move_of_error {source : Location} {fault : Fault} (h : tree.resolve path = .error fault) :
    tree.move source path = .error fault := by
  rw [Tree.move, h]
  rfl

/-- A file may be moved away from a place that is apart, if the place it comes to is apart too. -/
theorem SameBut.move (h : SameBut apart tree twin) (hsource : apart source → apart path.place) :
    SameChange apart (tree.move source path) (twin.move source path) := by
  rcases hresolve : twin.resolve path with fault | place
  · rw [move_of_error hresolve, move_of_error ((h.resolve_eq path).trans hresolve)]
    exact rfl
  obtain rfl := resolve_eq_ok hresolve
  have htarget : tree.find? path.place = some .folder ↔ twin.find? path.place = some .folder := by
    rcases h path.place with heq | ⟨-, content, content', hfile, hfile'⟩
    · rw [heq]
    · simp [hfile, hfile']
  -- A move asks whether there is a folder in its way, but not what is in a file.
  rw [move_of_resolve hresolve, move_of_resolve ((h.resolve_eq path).trans hresolve)]
  simp only [htarget]
  split
  · exact rfl
  · rcases h source with heq | ⟨hapart, content, content', hfile, hfile'⟩
    · rw [heq]
      rcases twin.find? source with _ | entry
      · exact rfl
      · exact (h.erase source).set (.inl rfl)
    · rw [hfile, hfile']
      exact (h.erase source).set (.inr ⟨hsource hapart, content, content', rfl, rfl⟩)

theorem SameBut.write (h : SameBut apart tree twin) (path : Path) (content : ByteArray) :
    SameChange apart (tree.write path content) (twin.write path content) := by
  rw [Tree.write, Tree.write, h.resolve_eq]
  rcases twin.resolve path with fault | place
  · exact rfl
  simp only [bind, Except.bind]
  have hset : SameBut apart (tree.set place (.file content)) (twin.set place (.file content)) :=
    h.set (.inl rfl)
  rcases h place with heq | ⟨-, content', content'', hfile, hfile'⟩
  · rw [heq]
    rcases twin.find? place with _ | _ | _
    · exact hset
    · exact hset
    · exact rfl
  · rw [hfile, hfile']
    exact hset

theorem SameBut.remove (h : SameBut apart tree twin) (path : Path) :
    SameChange apart (tree.remove path) (twin.remove path) := by
  rw [Tree.remove, Tree.remove, h.resolve_eq]
  rcases twin.resolve path with fault | place
  · exact rfl
  simp only [bind, Except.bind]
  rcases h place with heq | ⟨-, content, content', hfile, hfile'⟩
  · rw [heq]
    rcases twin.find? place with _ | _ | _
    · exact rfl
    · exact h.erase place
    · exact rfl
  · rw [hfile, hfile']
    exact h.erase place

end Tree

/-! ### Steps on twins -/

section Steps

variable {ε ε' β γ : Type} {good mid : β → Prop} {path : Path}

/-- The disks hold twin trees, and their devices refuse the same. -/
def TwinDisks (apart : Location → Prop) (disk twin : Disk) : Prop :=
  Tree.SameBut apart disk.tree twin.tree ∧ disk.refusals = twin.refusals

/-- Whatever the device refuses, the two steps end alike on twin trees: with the same value, which
is `good`, or for the same cause, and on twin trees again. -/
def Twins (apart : Location → Prop) (step step' : DiskM ε β) (good : β → Prop) : Prop :=
  ∀ disk twin, TwinDisks apart disk twin →
    Agree step step' disk twin (fun b b' after after' ↦ (b = b' ∧ good b) ∧
      TwinDisks apart after after') (TwinDisks apart)

theorem twins_pure {b : β} (h : good b) : Twins apart (pure b : DiskM ε β) (pure b) good :=
  fun _ _ hsame ↦ agree_pure ⟨⟨rfl, h⟩, hsame⟩

theorem twins_throw (e : ε) : Twins apart (throw e : DiskM ε β) (throw e) good :=
  fun _ _ hsame ↦ agree_throw e hsame

/-- How two steps that are twins end: either both succeed or both fail. -/
theorem Twins.cases {step step' : DiskM ε β} (h : Twins apart step step' good) {tree twin : Tree}
    (hsame : Tree.SameBut apart tree twin) (refusals : List Bool) :
    (∃ b after after' rest, good b ∧ Tree.SameBut apart after after' ∧
      step.run ⟨tree, refusals⟩ = (.ok b, ⟨after, rest⟩) ∧
      step'.run ⟨twin, refusals⟩ = (.ok b, ⟨after', rest⟩)) ∨
    (∃ e after after' rest, Tree.SameBut apart after after' ∧
      step.run ⟨tree, refusals⟩ = (.error e, ⟨after, rest⟩) ∧
      step'.run ⟨twin, refusals⟩ = (.error e, ⟨after', rest⟩)) := by
  rcases (h ⟨tree, refusals⟩ ⟨twin, refusals⟩ ⟨hsame, rfl⟩).cases with
    ⟨b, b', ⟨after, rest⟩, ⟨after', rest'⟩, ⟨⟨rfl, hgood⟩, htree, hrest⟩, hrun, hrun'⟩ |
    ⟨e, ⟨after, rest⟩, ⟨after', rest'⟩, ⟨htree, hrest⟩, hrun, hrun'⟩
  · obtain rfl : rest = rest' := hrest
    exact .inl ⟨b, after, after', rest, hgood, htree, hrun, hrun'⟩
  · obtain rfl : rest = rest' := hrest
    exact .inr ⟨e, after, after', rest, htree, hrun, hrun'⟩

theorem Twins.bind {x x' : DiskM ε β} {f f' : β → DiskM ε γ} {last : γ → Prop}
    (hx : Twins apart x x' mid) (hf : ∀ b, mid b → Twins apart (f b) (f' b) last) :
    Twins apart (x >>= f) (x' >>= f') last := by
  intro disk twin hsame
  refine (hx disk twin hsame).bind ?_
  rintro b _ between between' ⟨⟨rfl, hmid⟩, hbetween⟩
  exact hf b hmid between between' hbetween

theorem Twins.tryCatch {x x' : DiskM ε β} {handle handle' : ε → DiskM ε β}
    (hx : Twins apart x x' good) (hh : ∀ e, Twins apart (handle e) (handle' e) good) :
    Twins apart (tryCatch x handle) (tryCatch x' handle') good :=
  fun disk twin hsame ↦ (hx disk twin hsame).tryCatch fun e between between' hbetween ↦
    hh e between between' hbetween

theorem Twins.adapt {x x' : DiskM ε β} (f : ε → ε') (hx : Twins apart x x' good) :
    Twins apart (ExceptT.adapt f x) (ExceptT.adapt f x') good :=
  fun disk twin hsame ↦ (hx disk twin hsame).adapt f

theorem twins_get_bind {f f' : Disk → DiskM ε β}
    (h : ∀ tree twin refusals, Tree.SameBut apart tree twin →
      Twins apart (f ⟨tree, refusals⟩) (f' ⟨twin, refusals⟩) good) :
    Twins apart (get >>= f) (get >>= f') good := by
  rintro ⟨tree, refusals⟩ ⟨twin, _⟩ ⟨hsame, rfl⟩
  exact agree_get_bind (h tree twin refusals hsame _ _ ⟨hsame, rfl⟩)

theorem twins_attempt : Twins apart Disk.attempt Disk.attempt fun _ ↦ True := by
  rintro ⟨tree, refusals⟩ ⟨twin, _⟩ ⟨hsame, rfl⟩
  rcases refusals with _ | ⟨_ | _, refusals⟩
  · exact .of_ok rfl rfl ⟨⟨rfl, trivial⟩, hsame, rfl⟩
  · exact .of_ok rfl rfl ⟨⟨rfl, trivial⟩, hsame, rfl⟩
  · exact .of_error rfl rfl ⟨hsame, rfl⟩

theorem twins_look {f f' : Tree → Except Fault β}
    (h : ∀ tree twin, Tree.SameBut apart tree twin →
      f tree = f' twin ∧ ∀ b, f' twin = .ok b → good b) :
    Twins apart (Disk.look f) (Disk.look f') good := by
  intro disk twin hsame
  obtain ⟨heq, hgood⟩ := h disk.tree twin.tree hsame.1
  exact agree_look heq (fun b hb ↦ ⟨⟨rfl, hgood b hb⟩, hsame⟩) hsame

theorem twins_change {f f' : Tree → Except Fault Tree}
    (h : ∀ tree twin, Tree.SameBut apart tree twin → Tree.SameChange apart (f tree) (f' twin)) :
    Twins apart (Disk.change f) (Disk.change f') fun _ ↦ True := by
  intro disk twin hsame
  have hchange := h disk.tree twin.tree hsame.1
  refine agree_change ?_
  rcases hresult : f disk.tree with fault | after <;>
    rcases hresult' : f' twin.tree with fault' | after' <;> rw [hresult, hresult'] at hchange
  · obtain rfl : fault = fault' := hchange
    exact .inr ⟨fault, rfl, rfl, hsame⟩
  · exact hchange.elim
  · exact hchange.elim
  · exact .inl ⟨after, after', rfl, rfl, ⟨rfl, trivial⟩, hchange, hsame.2⟩

theorem twins_modify {f : Disk → Disk}
    (h : ∀ tree twin refusals, Tree.SameBut apart tree twin →
      Tree.SameBut apart (f ⟨tree, refusals⟩).tree (f ⟨twin, refusals⟩).tree ∧
        (f ⟨tree, refusals⟩).refusals = (f ⟨twin, refusals⟩).refusals) :
    Twins apart (modify f : DiskM ε Unit) (modify f) fun _ ↦ True := by
  rintro ⟨tree, refusals⟩ ⟨twin, _⟩ ⟨hsame, rfl⟩
  exact agree_modify ⟨⟨rfl, trivial⟩, h tree twin refusals hsame⟩

/-! ### Parts of a replacement -/

theorem twins_discard (staged : Staged) :
    Twins apart (Disk.discard staged : DiskM ε Unit) (Disk.discard staged) fun _ ↦ True :=
  twins_modify fun _ _ _ hsame ↦ ⟨hsame.erase staged.place, rfl⟩

/-- What is staged is given up in the same way, whatever the two steps succeed with. -/
theorem Agree.keeping {staged : Staged} {step step' : DiskM ε β} {disk twin : Disk}
    {good : β → β → Disk → Disk → Prop} (h : Agree step step' disk twin good (TwinDisks apart)) :
    Agree (Disk.keeping staged step) (Disk.keeping staged step') disk twin good (TwinDisks apart) :=
  h.tryCatch fun e between between' hbetween ↦ (twins_discard staged between between' hbetween).bind
    fun _ _ _ _ hafter ↦ agree_throw e hafter.2

theorem twins_keeping {staged : Staged} {step step' : DiskM ε β} (h : Twins apart step step' good) :
    Twins apart (Disk.keeping staged step) (Disk.keeping staged step') good :=
  fun disk twin hsame ↦ (h disk twin hsame).keeping

theorem twins_read (h : ¬apart path.place) :
    Twins apart (Disk.read path) (Disk.read path) fun _ ↦ True :=
  .bind twins_attempt fun _ _ ↦ twins_look fun _ _ hsame ↦ ⟨hsame.read_eq h, fun _ _ ↦ trivial⟩

theorem twins_makeFolders :
    Twins apart (Disk.makeFolders path) (Disk.makeFolders path) fun _ ↦ True := by
  refine .bind twins_attempt fun _ _ ↦ twins_get_bind fun tree twin refusals hsame ↦ ?_
  obtain ⟨hfault, htree⟩ := hsame.makeFolders path
  rcases hmade : tree.makeFolders path with ⟨fault, after⟩
  rcases hmade' : twin.makeFolders path with ⟨fault', after'⟩
  rw [hmade, hmade'] at hfault htree
  obtain rfl : fault = fault' := hfault
  simp only
  rcases fault with _ | fault
  · exact fun _ _ _ ↦ .of_ok rfl rfl ⟨⟨rfl, trivial⟩, htree, rfl⟩
  · exact fun _ _ _ ↦ .of_error rfl rfl ⟨htree, rfl⟩

/-- Staging may write another content to a place that is apart. -/
theorem twins_stage {name : String} {content content' : ByteArray}
    (h : content = content' ∨ apart (name :: path.folder.place)) :
    Twins apart (Disk.stage path name content) (Disk.stage path name content')
      fun staged ↦ staged = ⟨name :: path.folder.place⟩ := by
  refine .bind twins_makeFolders fun _ _ ↦ .bind twins_attempt fun _ _ ↦ ?_
  refine .bind (twins_look fun tree twin hsame ↦
    ⟨hsame.resolve_eq _, fun _ ↦ Tree.resolve_eq_ok⟩) ?_
  rintro _ rfl
  have hentry :
      Tree.SameEntry apart (name :: path.folder.place) (.file content) (.file content') := by
    rcases h with rfl | hapart
    · exact .inl rfl
    · exact .inr ⟨hapart, content, content', rfl, rfl⟩
  refine .bind (twins_look fun tree twin hsame ↦
    ⟨hsame.requireFolder_eq _, fun _ _ ↦ trivial⟩) fun _ _ ↦ ?_
  refine .bind (twins_change fun tree twin hsame ↦ hsame.set (.inl rfl)) fun _ _ ↦ ?_
  refine twins_keeping (.bind twins_attempt fun _ _ ↦ ?_)
  refine .bind (twins_change fun tree twin hsame ↦ hsame.set hentry) fun _ _ ↦ ?_
  exact .bind twins_attempt fun _ _ ↦ twins_pure rfl

theorem twins_commit {staged : Staged} (h : apart staged.place → apart path.place) :
    Twins apart (Disk.commit staged path) (Disk.commit staged path) fun _ ↦ True :=
  .bind twins_attempt fun _ _ ↦ twins_change fun _ _ hsame ↦ hsame.move h

theorem twins_restore (previous : Option ByteArray) :
    Twins apart (Disk.restore path previous : DiskM ε Unit) (Disk.restore path previous)
      fun _ ↦ True := by
  refine twins_modify ?_
  intro tree twin refusals hsame
  rcases previous with _ | content
  · have hchange := hsame.remove path
    rcases hresult : tree.remove path with fault | after <;>
      rcases hresult' : twin.remove path with fault' | after' <;> rw [hresult, hresult'] at hchange
    · simpa only [hresult, hresult'] using ⟨hsame, trivial⟩
    · exact hchange.elim
    · exact hchange.elim
    · simpa only [hresult, hresult'] using ⟨hchange, trivial⟩
  · have hchange := hsame.write path content
    rcases hresult : tree.write path content with fault | after <;>
      rcases hresult' : twin.write path content with fault' | after' <;>
        rw [hresult, hresult'] at hchange
    · simpa only [hresult, hresult'] using ⟨hsame, trivial⟩
    · exact hchange.elim
    · exact hchange.elim
    · simpa only [hresult, hresult'] using ⟨hchange, trivial⟩

/-! ### More and more places -/

/-- Like `Twins`, but afterwards the trees may differ at more places than before. -/
def Widens (apart wider : Location → Prop) (step step' : DiskM ε β) (good : β → Prop) : Prop :=
  ∀ disk twin, TwinDisks apart disk twin →
    Agree step step' disk twin (fun b b' after after' ↦ (b = b' ∧ good b) ∧
      TwinDisks wider after after') (TwinDisks wider)

variable {wider widest : Location → Prop}

theorem TwinDisks.mono {disk twin : Disk} (h : TwinDisks apart disk twin)
    (hwider : ∀ place, apart place → wider place) : TwinDisks wider disk twin :=
  ⟨h.1.mono hwider, h.2⟩

theorem Twins.widens {step step' : DiskM ε β} (h : Twins wider step step' good)
    (hwider : ∀ place, apart place → wider place) : Widens apart wider step step' good :=
  fun disk twin hsame ↦ h disk twin (hsame.mono hwider)

theorem Widens.bind {x x' : DiskM ε β} {f f' : β → DiskM ε γ} {last : γ → Prop}
    (hx : Widens apart wider x x' mid) (hwidest : ∀ place, wider place → widest place)
    (hf : ∀ b, mid b → Widens wider widest (f b) (f' b) last) :
    Widens apart widest (x >>= f) (x' >>= f') last := by
  intro disk twin hsame
  refine ((hx disk twin hsame).imp (fun _ _ _ _ ↦ id) fun _ _ h ↦ h.mono hwidest).bind ?_
  rintro b _ between between' ⟨⟨rfl, hmid⟩, hbetween⟩
  exact hf b hmid between between' hbetween

theorem widens_keeping {staged : Staged} {step step' : DiskM ε β}
    (h : Widens apart wider step step' good) :
    Widens apart wider (Disk.keeping staged step) (Disk.keeping staged step') good :=
  fun disk twin hsame ↦ (h disk twin hsame).keeping

end Steps

end OutlierScoring.Files
