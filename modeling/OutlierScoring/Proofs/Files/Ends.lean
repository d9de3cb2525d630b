import OutlierScoring.Files.Disk

/-!
# How steps on a disk end

A step on a disk is a function of the tree and of the list of refusals. `Ends step tree good bad`
says of all lists at once where the step can end: in `good` where it succeeds, in `bad` where it
fails. A statement of this form about a composed step is put together from statements about its
parts, by one rule for each way of composing (`Ends.bind`, `Ends.tryCatch`, …) and one for each
elementary step (`ends_attempt_bind`, `ends_look`, `ends_change`).

The cause of a failure is no part of it: what a failed step leaves behind must not depend on why it
failed.
-/

namespace OutlierScoring.Files

variable {ε ε' β γ : Type}

/-! ### Running composed steps -/

theorem run_bind (x : DiskM ε β) (f : β → DiskM ε γ) (disk : Disk) :
    (x >>= f).run disk =
      match x.run disk with
      | (.ok b, disk) => (f b).run disk
      | (.error e, disk) => (.error e, disk) := by
  show (ExceptT.bind x f).run disk = _
  rcases h : x.run disk with ⟨e | b, disk'⟩
  · exact congrArg (fun r ↦ (ExceptT.bindCont f r.1).run r.2) h
  · exact congrArg (fun r ↦ (ExceptT.bindCont f r.1).run r.2) h

/-- A step in two parts succeeds only where both of them do. -/
theorem exists_of_run_bind_eq_ok {x : DiskM ε β} {f : β → DiskM ε γ} {disk disk' : Disk} {c : γ}
    (h : (x >>= f).run disk = (.ok c, disk')) :
    ∃ b between, x.run disk = (.ok b, between) ∧ (f b).run between = (.ok c, disk') := by
  rw [run_bind] at h
  rcases hx : x.run disk with ⟨e | b, between⟩
  · rw [hx] at h
    exact absurd (congrArg Prod.fst h) nofun
  · rw [hx] at h
    exact ⟨b, between, rfl, h⟩

theorem run_tryCatch (x : DiskM ε β) (handle : ε → DiskM ε β) (disk : Disk) :
    (tryCatch x handle).run disk =
      match x.run disk with
      | (.ok b, disk) => (.ok b, disk)
      | (.error e, disk) => (handle e).run disk := by
  show (ExceptT.tryCatch x handle).run disk = _
  rcases h : x.run disk with ⟨e | b, disk'⟩
  · simp only [ExceptT.tryCatch, ExceptT.run, ExceptT.mk, bind, StateT.bind] at h ⊢
    rw [h]
  · simp only [ExceptT.tryCatch, ExceptT.run, ExceptT.mk, bind, StateT.bind] at h ⊢
    rw [h]
    rfl

theorem run_adapt (f : ε → ε') (x : DiskM ε β) (disk : Disk) :
    (ExceptT.adapt f x).run disk = ((x.run disk).1.mapError f, (x.run disk).2) := rfl

theorem run_look (f : Tree → Except Fault β) (disk : Disk) :
    (Disk.look f).run disk = (f disk.tree, disk) := by
  have hget : (get : DiskM Fault Disk).run disk = (.ok disk, disk) := rfl
  rw [Disk.look, run_bind, hget]
  simp only
  cases f disk.tree <;> rfl

/-! ### Where steps end -/

/-- Whatever the device refuses, a step that starts on the tree ends in `good` if it succeeds and in
`bad` if it fails. -/
def Ends (step : DiskM ε β) (tree : Tree) (good : β → Tree → Prop) (bad : Tree → Prop) : Prop :=
  ∀ refusals, match step.run ⟨tree, refusals⟩ with
    | (.ok b, disk) => good b disk.tree
    | (.error _, disk) => bad disk.tree

variable {tree : Tree} {good mid : β → Tree → Prop} {bad stop : Tree → Prop}

theorem Ends.of_run_eq_ok {step : DiskM ε β} {disk disk' : Disk} {b : β}
    (h : Ends step disk.tree good bad) (hr : step.run disk = (.ok b, disk')) :
    good b disk'.tree := by
  have h := h disk.refusals
  rw [show (⟨disk.tree, disk.refusals⟩ : Disk) = disk from rfl, hr] at h
  exact h

theorem Ends.of_run_eq_error {step : DiskM ε β} {disk disk' : Disk} {e : ε}
    (h : Ends step disk.tree good bad) (hr : step.run disk = (.error e, disk')) :
    bad disk'.tree := by
  have h := h disk.refusals
  rw [show (⟨disk.tree, disk.refusals⟩ : Disk) = disk from rfl, hr] at h
  exact h

theorem Ends.imp {step : DiskM ε β} (h : Ends step tree mid stop)
    (hgood : ∀ b after, mid b after → good b after) (hbad : ∀ after, stop after → bad after) :
    Ends step tree good bad := by
  intro refusals
  have h := h refusals
  rcases hr : step.run ⟨tree, refusals⟩ with ⟨e | b, disk⟩ <;> rw [hr] at h
  · exact hbad _ h
  · exact hgood b _ h

theorem ends_pure {b : β} (h : good b tree) : Ends (pure b : DiskM ε β) tree good bad :=
  fun _ ↦ h

theorem ends_throw {e : ε} (h : bad tree) : Ends (throw e : DiskM ε β) tree good bad :=
  fun _ ↦ h

theorem Ends.bind {x : DiskM ε β} {f : β → DiskM ε γ} {last : γ → Tree → Prop}
    (hx : Ends x tree mid bad) (hf : ∀ b between, mid b between → Ends (f b) between last bad) :
    Ends (x >>= f) tree last bad := by
  intro refusals
  have hx := hx refusals
  rw [run_bind]
  rcases hr : x.run ⟨tree, refusals⟩ with ⟨e | b, disk⟩ <;> rw [hr] at hx
  · exact hx
  · exact hf b disk.tree hx disk.refusals

theorem Ends.tryCatch {x : DiskM ε β} {handle : ε → DiskM ε β} (hx : Ends x tree good stop)
    (hh : ∀ e between, stop between → Ends (handle e) between good bad) :
    Ends (tryCatch x handle) tree good bad := by
  intro refusals
  have hx := hx refusals
  rw [run_tryCatch]
  rcases hr : x.run ⟨tree, refusals⟩ with ⟨e | b, disk⟩ <;> rw [hr] at hx
  · exact hh e disk.tree hx disk.refusals
  · exact hx

theorem Ends.adapt {x : DiskM ε β} (f : ε → ε') (hx : Ends x tree good bad) :
    Ends (ExceptT.adapt f x) tree good bad := by
  intro refusals
  have hx := hx refusals
  rw [run_adapt]
  rcases hr : x.run ⟨tree, refusals⟩ with ⟨e | b, disk⟩ <;> rw [hr] at hx <;> exact hx

/-- A step that looks at the disk first. -/
theorem ends_get_bind {f : Disk → DiskM ε β}
    (h : ∀ refusals, Ends (f ⟨tree, refusals⟩) tree good bad) :
    Ends (get >>= f) tree good bad := by
  intro refusals
  rw [run_bind]
  exact h refusals refusals

/-! ### Elementary steps -/

theorem ends_modify {f : Disk → Disk} {good : Unit → Tree → Prop}
    (h : ∀ refusals, good () (f ⟨tree, refusals⟩).tree) :
    Ends (modify f : DiskM ε Unit) tree good bad := h

theorem ends_look {f : Tree → Except Fault β} (hgood : ∀ b, f tree = .ok b → good b tree)
    (hbad : ∀ fault, f tree = .error fault → bad tree) :
    Ends (Disk.look f) tree good bad := by
  refine ends_get_bind ?_
  intro refusals
  rcases h : f tree with fault | b
  · exact ends_throw (hbad fault h)
  · exact ends_pure (hgood b h)

theorem ends_change {f : Tree → Except Fault Tree} {good : Unit → Tree → Prop}
    (hgood : ∀ after, f tree = .ok after → good () after)
    (hbad : ∀ fault, f tree = .error fault → bad tree) :
    Ends (Disk.change f) tree good bad := by
  refine ends_get_bind ?_
  intro refusals
  rcases h : f tree with fault | after
  · exact ends_throw (hbad fault h)
  · exact fun _ ↦ hgood after h

/-! ### Composed steps that begin with an elementary one -/

theorem ends_attempt_bind {f : Unit → DiskM Fault β} (hbad : bad tree)
    (hf : Ends (f ()) tree good bad) : Ends (Disk.attempt >>= f) tree good bad := by
  intro refusals
  rw [run_bind]
  -- The device refuses where the list says so, and nothing once the list is used up.
  rcases refusals with _ | ⟨_ | _, refusals⟩
  · exact hf []
  · exact hf refusals
  · exact hbad

theorem ends_look_bind {g : Tree → Except Fault γ} {f : γ → DiskM Fault β}
    (hf : ∀ c, g tree = .ok c → Ends (f c) tree good bad)
    (hbad : ∀ fault, g tree = .error fault → bad tree) :
    Ends (Disk.look g >>= f) tree good bad := by
  have hlook : Ends (Disk.look g) tree (fun c after ↦ g tree = .ok c ∧ tree = after) bad :=
    ends_look (fun c h ↦ ⟨h, rfl⟩) hbad
  refine hlook.bind fun c _ h ↦ ?_
  rw [← h.2]
  exact hf c h.1

theorem ends_change_bind {g : Tree → Except Fault Tree} {f : Unit → DiskM Fault β}
    (hf : ∀ after, g tree = .ok after → Ends (f ()) after good bad)
    (hbad : ∀ fault, g tree = .error fault → bad tree) :
    Ends (Disk.change g >>= f) tree good bad := by
  have hchange : Ends (Disk.change g) tree (fun _ after ↦ g tree = .ok after) bad :=
    ends_change (fun _ h ↦ h) hbad
  exact hchange.bind fun _ after h ↦ hf after h

end OutlierScoring.Files
