import Mathlib.Data.List.Forall2
import OutlierScoring.Failure

/-!
# Outcomes of several steps

How an outcome that is put together of others succeeds and fails: step after step, and item by item
along a list.
-/

namespace OutlierScoring.Outcome

variable {α β γ ε : Type}

/-- What comes in two parts succeeds only where both of them do. -/
theorem exists_of_bind_eq_ok {x : Except ε β} {f : β → Except ε γ} {c : γ}
    (h : x >>= f = .ok c) : ∃ b, x = .ok b ∧ f b = .ok c := by
  rcases x with failure | b
  · exact absurd h nofun
  · exact ⟨b, rfl, h⟩

theorem exists_of_isOk {x : Except ε β} (h : x.isOk = true) : ∃ b, x = .ok b := by
  rcases x with failure | b
  · exact absurd h nofun
  · exact ⟨b, rfl⟩

/-- Steps that are the same one by one come to the same along a list. -/
theorem mapM_congr {μ : Type → Type} [Monad μ] [LawfulMonad μ] {f g : β → μ γ} {xs : List β}
    (h : ∀ x ∈ xs, f x = g x) : xs.mapM f = xs.mapM g := by
  induction xs with
  | nil => rfl
  | cons x xs ih =>
    rw [List.mapM_cons, List.mapM_cons, h x List.mem_cons_self,
      ih fun x' hx' ↦ h x' (List.mem_cons_of_mem x hx')]

variable {f : β → Except ε γ}

/-- A list of steps succeeds with what the steps give one by one. -/
theorem mapM_eq_ok_iff {xs : List β} {ys : List γ} :
    xs.mapM f = .ok ys ↔ List.Forall₂ (fun x y ↦ f x = .ok y) xs ys := by
  induction xs generalizing ys with
  | nil => simp [pure, Except.pure, eq_comm]
  | cons x xs ih =>
    rw [List.mapM_cons, List.forall₂_cons_left_iff]
    rcases hx : f x with e | y
    · simp [bind, Except.bind]
    rcases hxs : xs.mapM f with e | rest
    · simp [bind, Except.bind, ← ih, hxs]
    · simp [bind, Except.bind, pure, Except.pure, ← ih, hxs, eq_comm]

/-- The same for steps that have no reason to fail for. -/
theorem mapM_eq_some_iff {f : β → Option γ} {xs : List β} {ys : List γ} :
    xs.mapM f = some ys ↔ List.Forall₂ (fun x y ↦ f x = some y) xs ys := by
  induction xs generalizing ys with
  | nil => simp [eq_comm]
  | cons x xs ih =>
    rw [List.mapM_cons, List.forall₂_cons_left_iff]
    rcases hx : f x with _ | y
    · simp
    rcases hxs : xs.mapM f with _ | rest
    · simp [← ih, hxs]
    · simp [← ih, hxs, eq_comm]

theorem length_of_mapM {xs : List β} {ys : List γ} (h : xs.mapM f = .ok ys) :
    ys.length = xs.length :=
  (mapM_eq_ok_iff.mp h).length_eq.symm

/-- A list of steps succeeds if all of them do, whatever they fail with otherwise. -/
theorem exists_mapM_eq_ok {xs : List β} (h : ∀ x ∈ xs, ∃ y, f x = .ok y) :
    ∃ ys, xs.mapM f = .ok ys := by
  induction xs with
  | nil => exact ⟨[], rfl⟩
  | cons x xs ih =>
    obtain ⟨y, hy⟩ := h x List.mem_cons_self
    obtain ⟨ys, hys⟩ := ih fun x' hx' ↦ h x' (List.mem_cons_of_mem x hx')
    rw [List.mapM_cons, hy, hys]
    exact ⟨y :: ys, rfl⟩

/-- Steps that all give the same give it as many times. -/
theorem mapM_eq_replicate {xs : List β} {y : γ} (h : ∀ x ∈ xs, f x = .ok y) :
    xs.mapM f = .ok (List.replicate xs.length y) := by
  induction xs with
  | nil => rfl
  | cons x xs ih =>
    rw [List.mapM_cons, h x List.mem_cons_self, ih fun x' hx' ↦ h x' (List.mem_cons_of_mem x hx')]
    rfl

/-- A list of steps that succeeds gives at each place what the step there gives. -/
theorem getElem_of_mapM {xs : List β} {ys : List γ}
    (h : xs.mapM f = .ok ys) (i : Nat) (hi : i < xs.length) (hi' : i < ys.length) :
    f xs[i] = .ok ys[i] :=
  (mapM_eq_ok_iff.mp h).get hi hi'

/-- A list of steps succeeds only if all of them do. -/
theorem forall_of_mapM_eq_ok {xs : List β} {ys : List γ} (h : xs.mapM f = .ok ys) :
    ∀ x ∈ xs, ∃ y, f x = .ok y := by
  intro x hx
  obtain ⟨i, hi, rfl⟩ := List.getElem_of_mem hx
  exact ⟨_, getElem_of_mapM h i hi (length_of_mapM h ▸ hi)⟩

/-- All that a list of steps gives is given by one of them. -/
theorem exists_of_mem_mapM {xs : List β} {ys : List γ} (h : xs.mapM f = .ok ys) :
    ∀ y ∈ ys, ∃ x ∈ xs, f x = .ok y := by
  intro y hy
  obtain ⟨i, hi, rfl⟩ := List.getElem_of_mem hy
  have hi' : i < xs.length := length_of_mapM h ▸ hi
  exact ⟨xs[i], List.getElem_mem hi', getElem_of_mapM h i hi' hi⟩

/-- A list of steps fails with what the first of them that fails fails with. -/
theorem exists_first_of_mapM_eq_error {xs : List β} {e : ε}
    (h : xs.mapM f = .error e) :
    ∃ (i : Nat) (hi : i < xs.length), f xs[i] = .error e ∧
      ∀ (j : Nat) (hj : j < i), ∃ y, f xs[j] = .ok y := by
  induction xs with
  | nil => exact absurd h nofun
  | cons x xs ih =>
    rw [List.mapM_cons] at h
    rcases hx : f x with e' | y
    · rw [hx] at h
      refine ⟨0, Nat.succ_pos _, ?_, fun j hj ↦ absurd hj (Nat.not_lt_zero j)⟩
      exact hx.trans (congrArg _ (Except.error.inj h))
    · rcases hxs : xs.mapM f with e' | ys
      · rw [hx, hxs] at h
        obtain rfl := Except.error.inj h
        obtain ⟨i, hi, hfail, hbefore⟩ := ih hxs
        refine ⟨i + 1, Nat.succ_lt_succ hi, hfail, ?_⟩
        rintro (_ | j) hj
        · exact ⟨y, hx⟩
        · exact hbefore j (Nat.lt_of_succ_lt_succ hj)
      · rw [hx, hxs] at h
        exact absurd h nofun

/-- A list of steps fails where the first one that does not succeed does. -/
theorem mapM_eq_error_of_first {xs : List β} {e : ε} {i : Nat}
    (hi : i < xs.length) (hfail : f xs[i] = .error e)
    (hbefore : ∀ (j : Nat) (hj : j < i), ∃ y, f xs[j] = .ok y) : xs.mapM f = .error e := by
  induction xs generalizing i with
  | nil => exact absurd hi (Nat.not_lt_zero i)
  | cons x xs ih =>
    rw [List.mapM_cons]
    rcases i with _ | i
    · rw [show f x = .error e from hfail]
      rfl
    · obtain ⟨y, hy⟩ := hbefore 0 (Nat.succ_pos i)
      rw [show f x = .ok y from hy,
        ih (Nat.lt_of_succ_lt_succ hi) hfail fun j hj ↦ hbefore (j + 1) (Nat.succ_lt_succ hj)]
      rfl

theorem exists_of_mapM_eq_error {xs : List β} {e : ε} (h : xs.mapM f = .error e) :
    ∃ x ∈ xs, f x = .error e := by
  obtain ⟨i, hi, hfail, -⟩ := exists_first_of_mapM_eq_error h
  exact ⟨xs[i], List.getElem_mem hi, hfail⟩

/-! ### Causes of failures -/

/-- All that the outcome can fail with are failures of the given kind. -/
def FailsOnly (kind : Failure α → Prop) (outcome : Outcome α β) : Prop :=
  ∀ failure, outcome = .error failure → kind failure

variable {kind : Failure α → Prop}

theorem failsOnly_ok (b : β) : FailsOnly kind (.ok b : Outcome α β) := nofun

theorem failsOnly_error {failure : Failure α} (h : kind failure) :
    FailsOnly kind (.error failure : Outcome α β) :=
  fun _ heq ↦ Except.error.inj heq ▸ h

theorem FailsOnly.bind {x : Outcome α β} {g : β → Outcome α γ} (hx : FailsOnly kind x)
    (hg : ∀ b, FailsOnly kind (g b)) : FailsOnly kind (x >>= g) := by
  rcases x with failure | b
  · exact failsOnly_error (hx failure rfl)
  · exact hg b

theorem failsOnly_mapM {f : β → Outcome α γ} (h : ∀ b, FailsOnly kind (f b)) (xs : List β) :
    FailsOnly kind (xs.mapM f) := by
  intro failure hfail
  obtain ⟨i, hi, hfail, -⟩ := exists_first_of_mapM_eq_error hfail
  exact h _ failure hfail

end OutlierScoring.Outcome
