import Mathlib
import OutlierScoring.Forest.Tree
import OutlierScoring.Proofs.Number.Exact

/-!
# Rounded numbers

What floats have in common with the real numbers, as far as bounds go. The finite numbers of an
`OrderedScalar` stand for real numbers and are compared as these. In a `RoundedScalar` an operation
on finite numbers gives the result of the exact one, rounded: whatever finite numbers lie on the two
sides of the exact result lie on the two sides of the rounded one too, and with such numbers on both
sides the rounded result is finite (`RoundsTo`). How far the rounding goes is left open, except that
small naturals and what is doubled are not rounded at all.

A sum of many numbers may become infinite. What is then still known is its sign, for which there are
laws that are not about finite numbers only.

Logarithms and powers are rounded in ways of their own. A `LawfulFunctions` keeps them between
coarse bounds, and that is all that is asked of them.

The real numbers obey all of this, without any rounding.
-/

namespace OutlierScoring

/-- Numbers of which the finite ones stand for real numbers and are compared as these. -/
class OrderedScalar (α : Type) [Scalar α] where
  /-- The real number that a finite number stands for. -/
  value : α → ℝ
  lt_iff {a b : α} : Scalar.isFinite a = true → Scalar.isFinite b = true →
    (a < b ↔ value a < value b)
  le_iff {a b : α} : Scalar.isFinite a = true → Scalar.isFinite b = true →
    (a ≤ b ↔ value a ≤ value b)
  /-- What lies between finite numbers is finite. -/
  isFinite_of_between {a b x : α} : Scalar.isFinite a = true → Scalar.isFinite b = true →
    a < x → ¬b < x → Scalar.isFinite x = true
  not_lt_of_le {a b : α} : a ≤ b → ¬b < a
  isNaN_of_isFinite {a : α} : Scalar.isFinite a = true → Scalar.isNaN a = false

/-- The number is the real number, rounded. -/
def RoundsTo {α : Type} [Scalar α] [OrderedScalar α] (r : ℝ) (x : α) : Prop :=
  ∀ ⦃low high : α⦄, Scalar.isFinite low = true → Scalar.isFinite high = true →
    OrderedScalar.value low ≤ r → r ≤ OrderedScalar.value high →
      Scalar.isFinite x = true ∧ OrderedScalar.value low ≤ OrderedScalar.value x ∧
        OrderedScalar.value x ≤ OrderedScalar.value high

/-- Numbers whose operations are those of the real numbers, rounded. -/
class RoundedScalar (α : Type) [Scalar α] extends OrderedScalar α where
  isFinite_zero : Scalar.isFinite (0 : α) = true
  value_zero : value (0 : α) = 0
  isFinite_one : Scalar.isFinite (1 : α) = true
  value_one : value (1 : α) = 1
  /-- There is room for powers of two, and they are not rounded. -/
  exists_value_eq (k : ℤ) : -1022 ≤ k → k ≤ 1023 →
    ∃ x : α, Scalar.isFinite x = true ∧ value x = 2 ^ k
  /-- Negatives are not rounded. -/
  neg {a : α} : Scalar.isFinite a = true → Scalar.isFinite (-a) = true ∧ value (-a) = -value a
  /-- Naturals with few digits are not rounded. -/
  value_natCast {n : ℕ} : n < 2 ^ 53 →
    Scalar.isFinite (n : α) = true ∧ value (n : α) = n
  natCast (n : ℕ) : RoundsTo (n : ℝ) (n : α)
  /-- What is doubled is not rounded, unless it is as good as too large. -/
  two_mul {a : α} : Scalar.isFinite a = true → |value a| ≤ 2 ^ 1000 →
    Scalar.isFinite (Scalar.two * a) = true ∧ value (Scalar.two * a) = 2 * value a
  add {a b : α} : Scalar.isFinite a = true → Scalar.isFinite b = true →
    RoundsTo (value a + value b) (a + b)
  sub {a b : α} : Scalar.isFinite a = true → Scalar.isFinite b = true →
    RoundsTo (value a - value b) (a - b)
  mul {a b : α} : Scalar.isFinite a = true → Scalar.isFinite b = true →
    RoundsTo (value a * value b) (a * b)
  div {a b : α} : Scalar.isFinite a = true → Scalar.isFinite b = true → value b ≠ 0 →
    RoundsTo (value a / value b) (a / b)
  eulerGamma : RoundsTo 0.5772156649 (IsolationTree.eulerGamma : α)
  /-- The sign of a sum, which may be infinite. -/
  add_nonneg {a b : α} : 0 ≤ a → 0 ≤ b → 0 ≤ a + b
  neg_nonpos {a : α} : 0 ≤ a → -a ≤ 0
  div_nonneg {a b : α} : 0 ≤ a → Scalar.isFinite b = true → 0 < b → 0 ≤ a / b
  div_nonpos {a b : α} : a ≤ 0 → Scalar.isFinite b = true → 0 < b → a / b ≤ 0

/-- Coarse bounds for logarithms and powers. -/
class LawfulFunctions (α : Type) [Scalar α] [OrderedScalar α] : Prop where
  log {x : α} : Scalar.isFinite x = true → 2 ≤ OrderedScalar.value x →
    Scalar.isFinite (Scalar.log x) = true ∧ 1 / 2 ≤ OrderedScalar.value (Scalar.log x) ∧
      OrderedScalar.value (Scalar.log x) ≤ OrderedScalar.value x
  exp2 {x : α} : x ≤ 0 →
    Scalar.isFinite (Scalar.exp2 x) = true ∧ 0 ≤ OrderedScalar.value (Scalar.exp2 x) ∧
      OrderedScalar.value (Scalar.exp2 x) ≤ 1

/-! ### Extremes -/

namespace OrderedScalar

variable {α : Type} [Scalar α] [OrderedScalar α]

omit [OrderedScalar α] in
/-- What is picked from pairs of finite numbers, one after the other, is one of them, and it is
below all of them in whatever way it is below the two that it is picked from. -/
theorem foldl_pick_spec (pick : α → α → α) (height : α → ℝ)
    (hpick : ∀ {a b : α}, Scalar.isFinite a = true → Scalar.isFinite b = true →
      (pick a b = a ∨ pick a b = b) ∧ height (pick a b) ≤ height a ∧ height (pick a b) ≤ height b)
    {start : α} {xs : List α} (hfinite : ∀ x ∈ start :: xs, Scalar.isFinite x = true) :
    xs.foldl pick start ∈ start :: xs ∧
      ∀ x ∈ start :: xs, height (xs.foldl pick start) ≤ height x := by
  induction xs generalizing start with
  | nil => exact ⟨List.mem_singleton_self start, fun x hx ↦ by rw [List.mem_singleton.mp hx]; rfl⟩
  | cons y ys ih =>
    have hstart := hfinite start List.mem_cons_self
    have hy := hfinite y (List.mem_cons_of_mem _ List.mem_cons_self)
    obtain ⟨hmem, hfirst, hsecond⟩ := hpick hstart hy
    have hpicked : Scalar.isFinite (pick start y) = true := by
      rcases hmem with h | h <;> rwa [h]
    have hrest : ∀ x ∈ pick start y :: ys, Scalar.isFinite x = true := by
      intro x hx
      rcases List.mem_cons.mp hx with rfl | hx
      · exact hpicked
      · exact hfinite x (List.mem_cons_of_mem _ (List.mem_cons_of_mem _ hx))
    obtain ⟨hin, hbelow⟩ := ih hrest
    have hnext := hbelow (pick start y) List.mem_cons_self
    rw [List.foldl_cons]
    refine ⟨?_, fun x hx ↦ ?_⟩
    · rcases List.mem_cons.mp hin with h | h
      · rw [h]
        rcases hmem with h | h <;> rw [h] <;> simp
      · exact List.mem_cons_of_mem _ (List.mem_cons_of_mem _ h)
    · rcases List.mem_cons.mp hx with rfl | hx
      · exact hnext.trans hfirst
      rcases List.mem_cons.mp hx with rfl | hx
      · exact hnext.trans hsecond
      · exact hbelow x (List.mem_cons_of_mem _ hx)

theorem filter_isNaN {xs : List α} (hfinite : ∀ x ∈ xs, Scalar.isFinite x = true) :
    xs.filter (!Scalar.isNaN ·) = xs := by
  rw [List.filter_eq_self]
  intro x hx
  rw [isNaN_of_isFinite (hfinite x hx)]
  rfl

variable {xs : List α} (hne : xs ≠ []) (hfinite : ∀ x ∈ xs, Scalar.isFinite x = true)

include hne hfinite

/-- The least of some finite numbers is one of them, and not above any. -/
theorem least_spec : Scalar.least xs ∈ xs ∧ ∀ x ∈ xs, value (Scalar.least xs) ≤ value x := by
  rw [Scalar.least, filter_isNaN hfinite]
  cases xs with
  | nil => exact absurd rfl hne
  | cons y ys =>
    refine foldl_pick_spec Scalar.lesser value (fun {a b} ha hb ↦ ?_) hfinite
    rw [Scalar.lesser]
    split
    · rename_i hlt
      exact ⟨.inr rfl, ((lt_iff hb ha).mp hlt).le, le_rfl⟩
    · rename_i hle
      exact ⟨.inl rfl, le_rfl, not_lt.mp fun hlt ↦ hle ((lt_iff hb ha).mpr hlt)⟩

/-- The greatest of some finite numbers is one of them, and not below any. -/
theorem greatest_spec :
    Scalar.greatest xs ∈ xs ∧ ∀ x ∈ xs, value x ≤ value (Scalar.greatest xs) := by
  rw [Scalar.greatest, filter_isNaN hfinite]
  cases xs with
  | nil => exact absurd rfl hne
  | cons y ys =>
    have hspec := foldl_pick_spec Scalar.greater (fun x : α ↦ -value x)
      (fun {a b} ha hb ↦ by
        rw [Scalar.greater]
        split
        · rename_i hlt
          exact ⟨.inr rfl, neg_le_neg ((lt_iff ha hb).mp hlt).le, le_rfl⟩
        · rename_i hle
          exact ⟨.inl rfl, le_rfl,
            neg_le_neg (not_lt.mp fun hlt ↦ hle ((lt_iff ha hb).mpr hlt))⟩) hfinite
    exact ⟨hspec.1, fun x hx ↦ neg_le_neg_iff.mp (hspec.2 x hx)⟩

end OrderedScalar

/-! ### Real numbers -/

noncomputable instance : OrderedScalar ℝ where
  value := id
  lt_iff _ _ := Iff.rfl
  le_iff _ _ := Iff.rfl
  isFinite_of_between _ _ _ _ := rfl
  not_lt_of_le := not_lt.mpr
  isNaN_of_isFinite _ := rfl

/-- A real number is not rounded. -/
theorem roundsTo_real (r : ℝ) : RoundsTo r r := fun _ _ _ _ hlow hhigh ↦ ⟨rfl, hlow, hhigh⟩

theorem exists_real_eq (k : ℤ) (_ : -1022 ≤ k) (_ : k ≤ 1023) :
    ∃ x : ℝ, Scalar.isFinite x = true ∧ OrderedScalar.value x = 2 ^ k := ⟨2 ^ k, rfl, rfl⟩

theorem real_two_mul {a : ℝ} (_ : Scalar.isFinite a = true)
    (_ : |OrderedScalar.value a| ≤ 2 ^ 1000) : Scalar.isFinite (Scalar.two * a) = true ∧
      OrderedScalar.value (Scalar.two * a) = 2 * OrderedScalar.value a :=
  ⟨rfl, congrArg (· * a) (Nat.cast_ofNat (R := ℝ) (n := 2))⟩

noncomputable instance : RoundedScalar ℝ where
  isFinite_zero := rfl
  value_zero := rfl
  isFinite_one := rfl
  value_one := rfl
  exists_value_eq := exists_real_eq
  neg _ := ⟨rfl, rfl⟩
  value_natCast _ := ⟨rfl, rfl⟩
  natCast n := roundsTo_real n
  two_mul := real_two_mul
  add {a b} _ _ := roundsTo_real (a + b)
  sub {a b} _ _ := roundsTo_real (a - b)
  mul {a b} _ _ := roundsTo_real (a * b)
  div {a b} _ _ _ := roundsTo_real (a / b)
  eulerGamma := roundsTo_real 0.5772156649
  add_nonneg := add_nonneg
  neg_nonpos := neg_nonpos.mpr
  div_nonneg ha _ hb := div_nonneg ha hb.le
  div_nonpos ha _ hb := div_nonpos_of_nonpos_of_nonneg ha hb.le

instance : LawfulFunctions ℝ where
  log {x} _ hx := by
    have hx : (2 : ℝ) ≤ x := hx
    have hlog : (1 : ℝ) / 2 ≤ Real.log 2 := by
      have := Real.log_two_gt_d9
      norm_num at this ⊢
      linarith
    refine ⟨rfl, hlog.trans (Real.log_le_log two_pos hx), ?_⟩
    exact (Real.log_le_sub_one_of_pos (two_pos.trans_le hx)).trans (sub_le_self x one_pos.le)
  exp2 {x} hx := by
    have hx : x ≤ 0 := hx
    exact ⟨rfl, Real.rpow_nonneg two_pos.le x, Real.rpow_le_one_of_one_le_of_nonpos one_le_two hx⟩

end OutlierScoring
