import Mathlib
import OutlierScoring.Proofs.Number.Rounded

/-!
# Bounds of rounded results

What is known of a rounded result is known by bounds, and bounds are kept by rounding where they are
numbers themselves (`RoundsTo.isBetween`). Powers of two and small naturals are (`IsExact`), which
is why all bounds are chosen among them, even where better ones are at hand.
-/

namespace OutlierScoring

variable {α : Type} [Scalar α]

open OrderedScalar (value)

section Ordered

variable [OrderedScalar α] {r low high : ℝ} {x : α}

/-- The number is finite and lies between the real numbers. -/
structure IsBetween (low high : ℝ) (x : α) : Prop where
  finite : Scalar.isFinite x = true
  low_le : low ≤ value x
  le_high : value x ≤ high

variable (α) in
/-- There is a number for the real number. -/
def IsExact (r : ℝ) : Prop := ∃ x : α, Scalar.isFinite x = true ∧ value x = r

theorem RoundsTo.isBetween (h : RoundsTo r x) (hlow : IsExact α low) (hhigh : IsExact α high)
    (hle : low ≤ r) (hge : r ≤ high) : IsBetween low high x := by
  obtain ⟨least, hleast, rfl⟩ := hlow
  obtain ⟨greatest, hgreatest, rfl⟩ := hhigh
  obtain ⟨hfinite, hlower, hupper⟩ := h hleast hgreatest hle hge
  exact ⟨hfinite, hlower, hupper⟩

theorem IsBetween.mono (h : IsBetween low high x) {low' high' : ℝ} (hlow : low' ≤ low)
    (hhigh : high ≤ high') : IsBetween low' high' x :=
  ⟨h.finite, hlow.trans h.low_le, h.le_high.trans hhigh⟩

theorem IsBetween.value_eq {r : ℝ} (h : IsBetween r r x) : value x = r :=
  le_antisymm h.le_high h.low_le

theorem IsBetween.isExact (h : IsBetween low high x) : IsExact α (value x) := ⟨x, h.finite, rfl⟩

end Ordered

variable [RoundedScalar α] {low high : ℝ} {x : α}

/-! ### Exact bounds -/

variable (α) in
theorem isExact_zero : IsExact α 0 := ⟨0, RoundedScalar.isFinite_zero, RoundedScalar.value_zero⟩

variable (α) in
theorem isExact_natCast {n : ℕ} (h : n < 2 ^ 53) : IsExact α n := ⟨n, RoundedScalar.value_natCast h⟩

variable (α) in
theorem isExact_one : IsExact α 1 := ⟨1, RoundedScalar.isFinite_one, RoundedScalar.value_one⟩

variable (α) in
theorem value_two : Scalar.isFinite (Scalar.two : α) = true ∧ value (Scalar.two : α) = 2 := by
  have htwo := RoundedScalar.value_natCast (α := α) (n := 2) (by decide)
  exact ⟨htwo.1, htwo.2.trans Nat.cast_two⟩

variable (α) in
theorem isExact_half : IsExact α (1 / 2) := by
  obtain ⟨x, hfinite, hvalue⟩ := RoundedScalar.exists_value_eq (α := α) (-1) (by omega) (by omega)
  exact ⟨x, hfinite, hvalue.trans (by norm_num)⟩

variable (α) in
theorem isExact_pow {k : ℕ} (h : k ≤ 1023) : IsExact α (2 ^ k) := by
  obtain ⟨x, hfinite, hvalue⟩ := RoundedScalar.exists_value_eq (α := α) k (by omega) (by omega)
  exact ⟨x, hfinite, hvalue.trans (zpow_natCast 2 k)⟩

theorem IsExact.neg {r : ℝ} (h : IsExact α r) : IsExact α (-r) := by
  obtain ⟨x, hfinite, rfl⟩ := h
  exact ⟨-x, RoundedScalar.neg hfinite⟩

/-! ### Bounded numbers -/

theorem isBetween_zero : IsBetween 0 0 (0 : α) :=
  ⟨RoundedScalar.isFinite_zero, RoundedScalar.value_zero.ge, RoundedScalar.value_zero.le⟩

theorem isBetween_one : IsBetween 1 1 (1 : α) :=
  ⟨RoundedScalar.isFinite_one, RoundedScalar.value_one.ge, RoundedScalar.value_one.le⟩

/-- Machine words are bounded by a power of two. -/
theorem isBetween_natCast {n : ℕ} (h : n ≤ UInt64.size) : IsBetween 0 (2 ^ 64) (n : α) := by
  have hn : (n : ℝ) ≤ 2 ^ 64 := by exact_mod_cast h
  exact (RoundedScalar.natCast n).isBetween (isExact_zero α) (isExact_pow α (by omega))
    n.cast_nonneg hn

theorem IsBetween.neg (h : IsBetween low high x) : IsBetween (-high) (-low) (-x) := by
  obtain ⟨hfinite, hvalue⟩ := RoundedScalar.neg h.finite
  exact ⟨hfinite, hvalue ▸ neg_le_neg h.le_high, hvalue ▸ neg_le_neg h.low_le⟩

/-- Doubling is exact far below the greatest numbers. -/
theorem IsBetween.two_mul (h : IsBetween low high x) (hlow : 0 ≤ low) {k : ℕ} (hk : k ≤ 1000)
    (hhigh : high ≤ 2 ^ k) :
    Scalar.isFinite (Scalar.two * x) = true ∧ value (Scalar.two * x) = 2 * value x := by
  refine RoundedScalar.two_mul h.finite ?_
  calc |value x| = value x := abs_of_nonneg (hlow.trans h.low_le)
    _ ≤ 2 ^ k := h.le_high.trans hhigh
    _ ≤ 2 ^ 1000 := pow_le_pow_right₀ one_le_two hk

theorem IsBetween.nonneg (h : IsBetween low high x) (hlow : 0 ≤ low) : 0 ≤ x := by
  rw [OrderedScalar.le_iff RoundedScalar.isFinite_zero h.finite, RoundedScalar.value_zero]
  exact hlow.trans h.low_le

theorem IsBetween.pos (h : IsBetween low high x) (hlow : 0 < low) : 0 < x := by
  rw [OrderedScalar.lt_iff RoundedScalar.isFinite_zero h.finite, RoundedScalar.value_zero]
  exact hlow.trans_le h.low_le

end OutlierScoring
