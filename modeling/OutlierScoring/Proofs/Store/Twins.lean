import OutlierScoring.Proofs.Files.Twins
import OutlierScoring.Proofs.Store.Replacing

/-!
# The model that is stored does not matter for storing

Whether a replacement succeeds depends neither on the model that is stored nor on the one that is
stored already, and nor does what it leaves behind everywhere else (`twins_replace`). This is what
lets two programs with different clocks store the same states.

Whether it succeeds does not even depend on the statistics (`fst_run_save_eq`): on the same disk all
replacements fare alike, though they leave different files behind.
-/

namespace OutlierScoring.Store

open Files

variable {α : Type}

/-- The places that hold a model, for good or while it is written. -/
def HoldsModel (store : Store) (place : Location) : Prop :=
  place = store.model.place ∨ place = store.modelTemp

theorem HoldsModel.eq_place {store : Store} {place : Location} (h : store.HoldsModel place)
    (hnamed : place.IsNamed) : place = store.model.place := by
  rcases h with h | rfl
  · exact h
  · exact absurd hnamed store.not_isNamed_modelTemp

theorem not_holdsModel_scaler {store : Store} (h : store.scaler.place ≠ store.model.place) :
    ¬store.HoldsModel store.scaler.place :=
  fun hholds ↦ h (hholds.eq_place store.isNamed_scaler)

theorem not_holdsModel_scalerTemp (store : Store) : ¬store.HoldsModel store.scalerTemp := by
  rintro (h | h)
  · exact store.scalerTemp_ne store.isNamed_model h
  · exact store.modelTemp_ne_scalerTemp h.symm

theorem twins_readExisting {apart : Location → Prop} {path : Path} (h : ¬apart path.place) :
    Twins apart (readExisting path : Step α _) (readExisting path) fun _ ↦ True := by
  refine twins_get_bind ?_
  intro tree twin refusals hsame
  simp only [hsame.isFile_eq]
  split
  · exact .bind (.adapt _ (twins_read h)) fun _ _ ↦ twins_pure trivial
  · exact twins_pure trivial

/-- Replacements of the two files fare alike, whichever model they store. -/
theorem twins_replace {store : Store} (h : store.scaler.place ≠ store.model.place)
    (model model' scaler : ByteArray) :
    Twins store.HoldsModel (store.replace model scaler : Step α Unit) (store.replace model' scaler)
      fun _ ↦ True := by
  refine .bind (.adapt _ (twins_stage (.inr (.inr rfl)))) ?_
  rintro _ rfl
  refine twins_keeping (.bind (.adapt _ (twins_stage (.inl rfl))) ?_)
  rintro _ rfl
  have hmove : store.HoldsModel store.scalerTemp → store.HoldsModel store.scaler.place :=
    fun hholds ↦ absurd hholds store.not_holdsModel_scalerTemp
  refine .bind (twins_keeping (.bind (twins_readExisting (not_holdsModel_scaler h)) fun _ _ ↦
    .bind (.adapt _ (twins_commit hmove)) fun _ _ ↦ twins_pure trivial)) fun previous _ ↦ ?_
  exact .tryCatch (.adapt _ (twins_commit fun _ ↦ .inl rfl)) fun failure ↦
    .bind (twins_restore previous) fun _ _ ↦ twins_throw failure

theorem twins_save {M : Type} [Json.Form M] [Scalar α] [Numeral α] {store : Store}
    (h : store.scaler.place ≠ store.model.place) (blob blob' : Blob M) (statistics : Statistics α) :
    Twins store.HoldsModel (store.save blob statistics) (store.save blob' statistics)
      fun _ ↦ True :=
  twins_replace h _ _ _

/-! ### Whatever is stored -/

/-- The places where something is written before it is moved. -/
def IsTemp (store : Store) (place : Location) : Prop :=
  place = store.modelTemp ∨ place = store.scalerTemp

theorem not_isTemp (store : Store) {place : Location} (h : place.IsNamed) :
    ¬store.IsTemp place := by
  rintro (rfl | rfl)
  · exact store.not_isNamed_modelTemp h
  · exact store.not_isNamed_scalerTemp h

/-- Replacements on the same disk fare alike, whatever they store: what is there before is looked at
while only the staged files differ, and afterwards no file is looked into. -/
theorem widens_replace (store : Store) (model model' scaler scaler' : ByteArray) :
    Widens store.IsTemp (fun _ ↦ True) (store.replace model scaler : Step α Unit)
      (store.replace model' scaler') fun _ ↦ True := by
  have hall (apart : Location → Prop) (place : Location) (_ : apart place) : True := trivial
  refine (((twins_stage (.inr (.inl rfl))).adapt _).widens fun _ ↦ id).bind (hall _) ?_
  rintro _ rfl
  refine widens_keeping ((((twins_stage (.inr (.inr rfl))).adapt _).widens fun _ ↦ id).bind
    (hall _) ?_)
  rintro _ rfl
  have hread : Twins store.IsTemp (readExisting store.scaler : Step α _)
      (readExisting store.scaler) fun _ ↦ True :=
    twins_readExisting (store.not_isTemp store.isNamed_scaler)
  have hmove (previous : Option ByteArray) : Twins (fun _ ↦ True)
      (storing store.scalerPath (Disk.commit ⟨store.scalerTemp⟩ store.scaler) >>= fun _ ↦
        pure previous : Step α _)
      (storing store.scalerPath (Disk.commit ⟨store.scalerTemp⟩ store.scaler) >>= fun _ ↦
        pure previous) fun _ ↦ True :=
    .bind (.adapt _ (twins_commit id)) fun _ _ ↦ twins_pure trivial
  have hmoves : Widens store.IsTemp (fun _ ↦ True)
      (readExisting store.scaler >>= fun previous ↦
        storing store.scalerPath (Disk.commit ⟨store.scalerTemp⟩ store.scaler) >>= fun _ ↦
          pure previous : Step α _)
      (readExisting store.scaler >>= fun previous ↦
        storing store.scalerPath (Disk.commit ⟨store.scalerTemp⟩ store.scaler) >>= fun _ ↦
          pure previous) fun _ ↦ True :=
    (hread.widens fun _ ↦ id).bind (hall _) fun previous _ ↦ (hmove previous).widens (hall _)
  refine (widens_keeping hmoves).bind (hall _) fun previous _ ↦ ?_
  refine Twins.widens ?_ (hall _)
  exact .tryCatch (.adapt _ (twins_commit id)) fun failure ↦
    .bind (twins_restore previous) fun _ _ ↦ twins_throw failure

/-- Whatever is stored on a disk, storing it succeeds or fails for the same cause. -/
theorem fst_run_save_eq {M : Type} [Json.Form M] [Scalar α] [Numeral α] (store : Store)
    (blob blob' : Blob M) (statistics statistics' : Statistics α) (disk : Disk) :
    ((store.save blob statistics).run disk).1 = ((store.save blob' statistics').run disk).1 := by
  have hsame : TwinDisks store.IsTemp disk disk := ⟨.refl _ _, rfl⟩
  rcases (widens_replace store _ _ _ _ disk disk hsame).cases with
    ⟨_, _, _, _, ⟨⟨rfl, -⟩, -⟩, hrun, hrun'⟩ | ⟨failure, _, _, -, hrun, hrun'⟩
  · rw [save, save, hrun, hrun']
  · rw [save, save, hrun, hrun']

end OutlierScoring.Store
