import OutlierScoring.Proofs.Files.Ends
import OutlierScoring.Store

/-!
# What a store fails with

Whatever goes wrong while two files are replaced is reported as a fault of the files, so that no
failure of a save is the caller's (`Store.failsOnly_save`). `FailsOnly` follows the causes of
failures through composed steps, which `Ends` leaves aside.
-/

namespace OutlierScoring

namespace Files

variable {ε ε' β γ : Type} {kind : ε → Prop}

/-- All that the step can fail with are failures of the given kind. -/
def FailsOnly (kind : ε → Prop) (step : DiskM ε β) : Prop :=
  ∀ disk e after, step.run disk = (.error e, after) → kind e

theorem failsOnly_pure (b : β) : FailsOnly kind (pure b : DiskM ε β) :=
  fun _ _ _ hrun ↦ absurd (congrArg Prod.fst hrun) nofun

theorem failsOnly_modify (f : Disk → Disk) : FailsOnly kind (modify f : DiskM ε Unit) :=
  fun _ _ _ hrun ↦ absurd (congrArg Prod.fst hrun) nofun

theorem failsOnly_throw {e : ε} (h : kind e) : FailsOnly kind (throw e : DiskM ε β) :=
  fun _ _ _ hrun ↦ Except.error.inj (congrArg Prod.fst hrun) ▸ h

/-- An adapted step fails with adapted causes only. -/
theorem failsOnly_adapt {f : ε' → ε} (h : ∀ e, kind (f e)) (step : DiskM ε' β) :
    FailsOnly kind (ExceptT.adapt f step) := by
  intro disk e after hrun
  rw [run_adapt] at hrun
  rcases hstep : (step.run disk).1 with e' | b
  · rw [hstep] at hrun
    exact Except.error.inj (congrArg Prod.fst hrun) ▸ h e'
  · rw [hstep] at hrun
    exact absurd (congrArg Prod.fst hrun) nofun

theorem FailsOnly.bind {x : DiskM ε β} {f : β → DiskM ε γ} (hx : FailsOnly kind x)
    (hf : ∀ b, FailsOnly kind (f b)) : FailsOnly kind (x >>= f) := by
  intro disk e after hrun
  rw [run_bind] at hrun
  rcases hfirst : x.run disk with ⟨e' | b, between⟩
  · rw [hfirst] at hrun
    exact Except.error.inj (congrArg Prod.fst hrun) ▸ hx disk e' between hfirst
  · rw [hfirst] at hrun
    exact hf b between e after hrun

/-- Where a step is handled, the handler has to fail as asked for, and only for causes of the
step. -/
theorem FailsOnly.tryCatch {x : DiskM ε β} {handle : ε → DiskM ε β} (hx : FailsOnly kind x)
    (hh : ∀ e, kind e → FailsOnly kind (handle e)) : FailsOnly kind (tryCatch x handle) := by
  intro disk e after hrun
  rw [run_tryCatch] at hrun
  rcases hfirst : x.run disk with ⟨e' | b, between⟩
  · rw [hfirst] at hrun
    exact hh e' (hx disk e' between hfirst) between e after hrun
  · rw [hfirst] at hrun
    exact absurd (congrArg Prod.fst hrun) nofun

theorem failsOnly_keeping {staged : Staged} {step : DiskM ε β} (h : FailsOnly kind step) :
    FailsOnly kind (Disk.keeping staged step) :=
  .tryCatch h fun _ he ↦ .bind (failsOnly_modify _) fun _ ↦ failsOnly_throw he

end Files

namespace Store

open Files

variable {α : Type}

/-- The failure is not the caller's. -/
def IsForeign (failure : Failure α) : Prop := failure.isClient = false

theorem failsOnly_readExisting (path : Path) :
    FailsOnly IsForeign (readExisting path : Step α (Option ByteArray)) := by
  have hget : FailsOnly IsForeign (get : Step α Disk) :=
    fun _ _ _ hrun ↦ absurd (congrArg Prod.fst hrun) nofun
  have hreading {β : Type} (step : DiskM Files.Fault β) :
      FailsOnly IsForeign (reading step : Step α β) :=
    failsOnly_adapt (fun fault ↦ (rfl : (Failure.unreadableFile fault).isClient = false)) step
  refine hget.bind fun disk ↦ ?_
  split
  · exact (hreading _).bind fun _ ↦ failsOnly_pure _
  · exact failsOnly_pure none

theorem failsOnly_replace (store : Store) (model scaler : ByteArray) :
    FailsOnly IsForeign (store.replace model scaler : Step α Unit) := by
  have hstoring {β : Type} (path : String) (step : DiskM Files.Fault β) :
      FailsOnly IsForeign (storing path step : Step α β) :=
    failsOnly_adapt
      (fun fault ↦ (rfl : (Failure.persistence path (.file fault)).isClient = false)) step
  refine (hstoring _ _).bind fun stagedModel ↦ failsOnly_keeping ?_
  refine (hstoring _ _).bind fun stagedScaler ↦ .bind (failsOnly_keeping ?_) fun previous ↦ ?_
  · exact (failsOnly_readExisting _).bind fun previous ↦ (hstoring _ _).bind fun _ ↦
      failsOnly_pure previous
  · exact (hstoring _ _).tryCatch fun failure hfailure ↦
      .bind (failsOnly_modify _) fun _ ↦ failsOnly_throw hfailure

/-- No failure of a save is the caller's. -/
theorem failsOnly_save {M : Type} [Json.Form M] [Scalar α] [Numeral α] (store : Store)
    (blob : Blob M) (statistics : Statistics α) :
    FailsOnly IsForeign (store.save blob statistics) := failsOnly_replace store _ _

end Store

end OutlierScoring
