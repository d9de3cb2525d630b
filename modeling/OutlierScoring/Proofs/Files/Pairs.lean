import OutlierScoring.Proofs.Files.Ends

/-!
# Two steps side by side

`Agree` compares a step on one disk with a step on another one: both succeed, with values and disks
that are related by `good`, or both fail for the same cause, on disks that are related by `bad`. As
with `Ends`, there is one rule for each way of composing steps and one for each elementary step,
which is made on both sides at once.
-/

namespace OutlierScoring.Files

variable {ε ε' β γ : Type} {disk disk' : Disk} {good mid : β → β → Disk → Disk → Prop}
  {bad stop : Disk → Disk → Prop}

/-- From the two disks both steps end alike, in `good` if they succeed and in `bad` if they fail. -/
def Agree (step step' : DiskM ε β) (disk disk' : Disk) (good : β → β → Disk → Disk → Prop)
    (bad : Disk → Disk → Prop) : Prop :=
  match step.run disk, step'.run disk' with
  | (.ok b, after), (.ok b', after') => good b b' after after'
  | (.error e, after), (.error e', after') => e = e' ∧ bad after after'
  | _, _ => False

/-- Two steps that agree both succeed or both fail. -/
theorem Agree.cases {step step' : DiskM ε β} (h : Agree step step' disk disk' good bad) :
    (∃ b b' after after', good b b' after after' ∧
      step.run disk = (.ok b, after) ∧ step'.run disk' = (.ok b', after')) ∨
    (∃ e after after', bad after after' ∧
      step.run disk = (.error e, after) ∧ step'.run disk' = (.error e, after')) := by
  rw [Agree] at h
  rcases hrun : step.run disk with ⟨e | b, after⟩ <;>
    rcases hrun' : step'.run disk' with ⟨e' | b', after'⟩ <;> rw [hrun, hrun'] at h
  · obtain ⟨rfl, hbad⟩ := h
    exact .inr ⟨e, after, after', hbad, rfl, rfl⟩
  · exact h.elim
  · exact h.elim
  · exact .inl ⟨b, b', after, after', h, rfl, rfl⟩

theorem Agree.of_ok {step step' : DiskM ε β} {b b' : β} {after after' : Disk}
    (hrun : step.run disk = (.ok b, after)) (hrun' : step'.run disk' = (.ok b', after'))
    (h : good b b' after after') : Agree step step' disk disk' good bad := by
  rw [Agree, hrun, hrun']
  exact h

theorem Agree.of_error {step step' : DiskM ε β} {e : ε} {after after' : Disk}
    (hrun : step.run disk = (.error e, after)) (hrun' : step'.run disk' = (.error e, after'))
    (h : bad after after') : Agree step step' disk disk' good bad := by
  rw [Agree, hrun, hrun']
  exact ⟨rfl, h⟩

theorem Agree.imp {step step' : DiskM ε β} (h : Agree step step' disk disk' mid stop)
    (hgood : ∀ b b' after after', mid b b' after after' → good b b' after after')
    (hbad : ∀ after after', stop after after' → bad after after') :
    Agree step step' disk disk' good bad := by
  rcases h.cases with
    ⟨b, b', after, after', hmid, hrun, hrun'⟩ |
    ⟨e, after, after', hstop, hrun, hrun'⟩
  · exact .of_ok hrun hrun' (hgood _ _ _ _ hmid)
  · exact .of_error hrun hrun' (hbad _ _ hstop)

/-! ### Composed steps -/

theorem agree_pure {b b' : β} (h : good b b' disk disk') :
    Agree (pure b : DiskM ε β) (pure b') disk disk' good bad := h

theorem agree_throw (e : ε) (h : bad disk disk') :
    Agree (throw e : DiskM ε β) (throw e) disk disk' good bad := ⟨rfl, h⟩

theorem Agree.bind {x x' : DiskM ε β} {f f' : β → DiskM ε γ}
    {last : γ → γ → Disk → Disk → Prop} (hx : Agree x x' disk disk' mid bad)
    (hf : ∀ b b' between between', mid b b' between between' →
      Agree (f b) (f' b') between between' last bad) :
    Agree (x >>= f) (x' >>= f') disk disk' last bad := by
  rw [Agree, run_bind, run_bind]
  rcases hx.cases with
    ⟨b, b', between, between', hmid, hrun, hrun'⟩ |
    ⟨e, between, between', hbad, hrun, hrun'⟩
  · rw [hrun, hrun']
    exact hf b b' between between' hmid
  · rw [hrun, hrun']
    exact ⟨rfl, hbad⟩

theorem Agree.tryCatch {x x' : DiskM ε β} {handle handle' : ε → DiskM ε β}
    (hx : Agree x x' disk disk' good stop)
    (hh : ∀ e between between', stop between between' →
      Agree (handle e) (handle' e) between between' good bad) :
    Agree (tryCatch x handle) (tryCatch x' handle') disk disk' good bad := by
  rw [Agree, run_tryCatch, run_tryCatch]
  rcases hx.cases with
    ⟨b, b', after, after', hgood, hrun, hrun'⟩ |
    ⟨e, between, between', hstop, hrun, hrun'⟩
  · rw [hrun, hrun']
    exact hgood
  · rw [hrun, hrun']
    exact hh e between between' hstop

theorem Agree.adapt {x x' : DiskM ε β} (f : ε → ε') (hx : Agree x x' disk disk' good bad) :
    Agree (ExceptT.adapt f x) (ExceptT.adapt f x') disk disk' good bad := by
  rw [Agree, run_adapt, run_adapt]
  rcases hx.cases with
    ⟨b, b', after, after', hgood, hrun, hrun'⟩ |
    ⟨e, after, after', hbad, hrun, hrun'⟩
  · rw [hrun, hrun']
    exact hgood
  · rw [hrun, hrun']
    exact ⟨rfl, hbad⟩

theorem agree_get_bind {f f' : Disk → DiskM ε β}
    (h : Agree (f disk) (f' disk') disk disk' good bad) :
    Agree (get >>= f) (get >>= f') disk disk' good bad := by
  rw [Agree, run_bind, run_bind]
  exact h

/-! ### Elementary steps -/

theorem agree_modify {f f' : Disk → Disk} {good : Unit → Unit → Disk → Disk → Prop}
    (h : good () () (f disk) (f' disk')) :
    Agree (modify f : DiskM ε Unit) (modify f') disk disk' good bad := h

theorem agree_look {f f' : Tree → Except Fault β} (heq : f disk.tree = f' disk'.tree)
    (hgood : ∀ b, f' disk'.tree = .ok b → good b b disk disk') (hbad : bad disk disk') :
    Agree (Disk.look f) (Disk.look f') disk disk' good bad := by
  rw [Agree, run_look, run_look, heq]
  rcases h : f' disk'.tree with fault | b
  · exact ⟨rfl, hbad⟩
  · exact hgood b h

theorem agree_change {f f' : Tree → Except Fault Tree} {good : Unit → Unit → Disk → Disk → Prop}
    (h : (∃ after after', f disk.tree = .ok after ∧ f' disk'.tree = .ok after' ∧
        good () () { disk with tree := after } { disk' with tree := after' }) ∨
      ∃ fault, f disk.tree = .error fault ∧ f' disk'.tree = .error fault ∧ bad disk disk') :
    Agree (Disk.change f) (Disk.change f') disk disk' good bad := by
  refine agree_get_bind ?_
  rcases h with ⟨after, after', hok, hok', hgood⟩ | ⟨fault, hfail, hfail', hbad⟩
  · rw [hok, hok']
    exact hgood
  · rw [hfail, hfail']
    exact agree_throw fault hbad

/-! ### Composed steps that begin with an elementary one -/

theorem agree_look_bind {g g' : Tree → Except Fault γ} {f f' : γ → DiskM Fault β}
    (heq : g disk.tree = g' disk'.tree)
    (hf : ∀ c, g' disk'.tree = .ok c → Agree (f c) (f' c) disk disk' good bad)
    (hbad : bad disk disk') :
    Agree (Disk.look g >>= f) (Disk.look g' >>= f') disk disk' good bad := by
  have hlook : Agree (Disk.look g) (Disk.look g') disk disk' (fun c c' after after' ↦
      (g' disk'.tree = .ok c ∧ c = c') ∧ disk = after ∧ disk' = after') bad :=
    agree_look heq (fun c hc ↦ ⟨⟨hc, rfl⟩, rfl, rfl⟩) hbad
  refine hlook.bind ?_
  rintro c _ _ _ ⟨⟨hc, rfl⟩, rfl, rfl⟩
  exact hf c hc

theorem agree_change_bind {g g' : Tree → Except Fault Tree} {f f' : Unit → DiskM Fault β}
    {after after' : Tree} (hok : g disk.tree = .ok after) (hok' : g' disk'.tree = .ok after')
    (hf : Agree (f ()) (f' ()) { disk with tree := after } { disk' with tree := after' } good bad) :
    Agree (Disk.change g >>= f) (Disk.change g' >>= f') disk disk' good bad := by
  have hchange : Agree (Disk.change g) (Disk.change g') disk disk' (fun _ _ between between' ↦
      { disk with tree := after } = between ∧ { disk' with tree := after' } = between') bad :=
    agree_change (.inl ⟨after, after', hok, hok', rfl, rfl⟩)
  refine hchange.bind ?_
  rintro ⟨⟩ ⟨⟩ _ _ ⟨rfl, rfl⟩
  exact hf

end OutlierScoring.Files
