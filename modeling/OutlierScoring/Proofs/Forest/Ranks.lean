import Mathlib
import OutlierScoring.Proofs.Forest.Quantile
import OutlierScoring.Proofs.Number.Arithmetic
import OutlierScoring.Proofs.Number.Intervals

/-!
# Ranks that are rounded

A quantile is looked up at two positions, which are made of a fraction and a number of entries by a
multiplication and by rounding its result down and up. Where numbers are rounded, nothing goes
without saying here: neither that the first position is not behind the second one, nor that the
second one is not behind the last entry. Both are what a `LawfulRanks` promises, and all that an
existing quantile needs (`exists_quantile?_of_ne_nil`).

Floats keep the promise because no fraction that can be asked for is above one half. The greatest
power of two that is not above the number of positions bounds half of that number, rounded, and as
rounding keeps bounds that are numbers themselves, it bounds the rank (`rank_isBetween`) and the
positions on both sides of it (`Binary64.ceil_le_of_isBetween`). Where there are more positions than
a machine word can count, the truncation saturates far below the last one.
-/

namespace OutlierScoring

open OrderedScalar (value)

/-- Numbers whose ranks lie among the positions that they are the ranks of. -/
class LawfulRanks (α : Type) [Scalar α] : Prop where
  floor_le_ceil (x : α) : Scalar.floor x ≤ Scalar.ceil x
  ceil_rank_le {c : α} (k : ℕ) : IsContamination c → Scalar.ceil (c * (k : α)) ≤ k

section Lawful

variable {α : Type} [Scalar α]

/-- There is a quantile of any numbers, for any fraction that can be asked for. -/
theorem exists_quantile?_of_ne_nil [LawfulRanks α] {c : α} (hc : IsContamination c) {xs : List α}
    (hne : xs ≠ []) : ∃ offset, quantile? c xs = some offset := by
  have hlength := length_ascending xs
  have hpos := List.length_pos_of_ne_nil hne
  have hceil := LawfulRanks.ceil_rank_le (xs.length - 1) hc
  have hfloor := LawfulRanks.floor_le_ceil (c * ((xs.length - 1 : ℕ) : α))
  rw [quantile?, atRank?, List.getElem?_eq_getElem (by omega), List.getElem?_eq_getElem (by omega)]
  exact ⟨_, rfl⟩

instance [ExactScalar α] : LawfulRanks α where
  floor_le_ceil x := by
    rw [ExactScalar.floor_eq, ExactScalar.ceil_eq]
    exact Nat.floor_le_ceil _
  ceil_rank_le k hc := by
    rw [ExactScalar.ceil_eq, Nat.ceil_le, ExactScalar.value_mul, ExactScalar.value_natCast]
    exact mul_le_of_le_one_left k.cast_nonneg (le_one_of_isContamination hc)

end Lawful

/-! ### Rounded ranks -/

section Rounded

variable {α : Type} [Scalar α] [RoundedScalar α] {c : α}

theorem contamination_isBetween (h : IsContamination c) : IsBetween 0 (1 / 2) c := by
  obtain ⟨htwo, hvalue⟩ := value_two α
  have hround := RoundedScalar.div RoundedScalar.isFinite_one htwo (hvalue.trans_ne two_ne_zero)
  rw [RoundedScalar.value_one, hvalue] at hround
  have hhalf : IsBetween 0 (1 / 2) (1 / Scalar.two : α) :=
    hround.isBetween (isExact_zero α) (isExact_half α) (by norm_num) le_rfl
  have hle := OrderedScalar.not_lt_of_le h.2
  have hfinite := OrderedScalar.isFinite_of_between isBetween_zero.finite hhalf.finite h.1 hle
  have hpos := (OrderedScalar.lt_iff isBetween_zero.finite hfinite).mp h.1
  rw [OrderedScalar.lt_iff hhalf.finite hfinite, not_lt] at hle
  exact ⟨hfinite, (RoundedScalar.value_zero (α := α)) ▸ hpos.le, hle.trans hhalf.le_high⟩

/-- A rank is not above the half of an exact number that is not below the number of positions. -/
theorem rank_isBetween (hc : IsContamination c) {k : ℕ} {bound : ℝ} (hk : (k : ℝ) ≤ 2 * bound)
    (hbound : IsExact α bound) (hdouble : IsExact α (2 * bound)) :
    IsBetween 0 bound (c * (k : α)) := by
  obtain ⟨hfinite, hlow, hhigh⟩ := contamination_isBetween hc
  have hcount : IsBetween 0 (2 * bound) (k : α) :=
    (RoundedScalar.natCast k).isBetween (isExact_zero α) hdouble k.cast_nonneg hk
  refine (RoundedScalar.mul hfinite hcount.finite).isBetween (isExact_zero α) hbound
    (mul_nonneg hlow hcount.low_le) ?_
  calc value c * value (k : α) ≤ 1 / 2 * (2 * bound) :=
        mul_le_mul hhigh hcount.le_high hcount.low_le (by norm_num)
    _ = bound := by ring

end Rounded

/-! ### Floats -/

namespace Binary64

open Float.Model.UnpackedFloat
open Float.Model (UnpackedFloat)

/-- The digits in front of the point are what is left when all others are shifted out. -/
theorem exists_roundToInt_eq (sign : Sign) (m : ℕ) (q : ℤ) :
    ∃ n : ℕ, roundToInt sign m q = sign.apply n ∧ (n : ℝ) ≤ m * 2 ^ q := by
  let k := (q - 0).toNat
  refine ⟨_, rfl, ?_⟩
  have hrest := ((represents_exact (m <<< k) (q - k)).shiftRight (0 - (q - k)).toNat).le
  have hexponent : q - k + (0 - (q - k)).toNat = 0 := by omega
  rw [shiftLeft_value, hexponent, zpow_zero, mul_one] at hrest
  exact hrest

/-- A float that is not negative is truncated to a natural number that is not above it. -/
theorem floor_le_value {x : Float} (hfinite : Scalar.isFinite x = true) (h : 0 ≤ value x) :
    (Scalar.floor x : ℝ) ≤ value x := by
  have hfloor : Scalar.floor x =
      (UInt64.ofNatClamp (toInt 0 (UInt64.size - 1) x.toModel.unpack).toNat).toNat := rfl
  have hclamp (n : ℕ) : (UInt64.ofNatClamp n).toNat ≤ n := by
    rw [UInt64.ofNatClamp]
    split
    · exact le_rfl
    · rename_i hlarge
      exact (UInt64.toNat_lt _).le.trans (not_lt.mp hlarge)
  change x.toModel.unpack.isFinite = true at hfinite
  change 0 ≤ valueOf x.toModel.unpack at h
  show (Scalar.floor x : ℝ) ≤ valueOf x.toModel.unpack
  rw [hfloor]
  cases hx : x.toModel.unpack with
  | infinity sign =>
    rw [hx] at hfinite
    cases hfinite
  | notANumber =>
    rw [hx] at hfinite
    cases hfinite
  | zero sign => exact le_of_eq Nat.cast_zero
  | finite sign m q hpos =>
    obtain ⟨n, hn, hle⟩ := exists_roundToInt_eq sign m q
    cases sign with
    | positive =>
      have hint : toInt 0 (UInt64.size - 1) (.finite .positive m q hpos) = n := hn
      rw [hint, Int.toNat_natCast]
      exact (Nat.cast_le.mpr (hclamp n)).trans hle
    | negative =>
      rw [hx] at h
      have hneg : valueOf (.finite .negative m q hpos) < 0 :=
        neg_neg_of_pos (mul_pos (Nat.cast_pos.mpr hpos) (by positivity))
      exact absurd h (not_le.mpr hneg)

theorem floor_lt_size (x : Float) : Scalar.floor x < UInt64.size := x.toUInt64.toNat_lt

theorem ceil_eq (x : Float) : Scalar.ceil x =
    if Float.ofNat (Scalar.floor x) < x then Scalar.floor x + 1 else Scalar.floor x := rfl

/-- A natural number that is a float bounds both positions of a rank, if it bounds the rank. -/
theorem ceil_le_of_isBetween {x : Float} {n : ℕ} (h : IsBetween 0 n x) (hn : IsExact Float n) :
    Scalar.ceil x ≤ n := by
  have hle : Scalar.floor x ≤ n := by
    exact_mod_cast (floor_le_value h.finite h.low_le).trans h.le_high
  rw [ceil_eq]
  rcases hle.lt_or_eq with hless | heq
  · split <;> omega
  · -- The number is not rounded when it is made a float again, so that it is not below the rank.
    have hcast : IsBetween n n (Float.ofNat n) :=
      (RoundedScalar.natCast n).isBetween hn hn le_rfl le_rfl
    have hnot : ¬Float.ofNat n < x := by
      rw [OrderedScalar.lt_iff hcast.finite h.finite, not_lt]
      exact h.le_high.trans hcast.low_le
    rw [heq, if_neg hnot]

/-- A machine word bounds both positions of a rank, whatever the rank is. -/
theorem ceil_le_size (x : Float) : Scalar.ceil x ≤ UInt64.size := by
  have := floor_lt_size x
  rw [ceil_eq]
  split <;> omega

end Binary64

instance : LawfulRanks Float where
  floor_le_ceil x := by
    rw [Binary64.ceil_eq]
    split <;> omega
  ceil_rank_le {c} k hc := by
    rcases Nat.eq_zero_or_pos k with rfl | hpos
    · have hzero : IsExact Float (2 * ((0 : ℕ) : ℝ)) := by simpa using isExact_zero Float
      exact Binary64.ceil_le_of_isBetween (rank_isBetween hc (by simp)
        (isExact_natCast Float (by decide)) hzero) (isExact_natCast Float (by decide))
    rcases Nat.lt_or_ge k UInt64.size with hsmall | hlarge
    · have hlog : k.log2 < 64 := (Nat.log2_lt hpos.ne').mpr hsmall
      have hbound : IsExact Float ((2 ^ k.log2 : ℕ) : ℝ) := by
        exact_mod_cast isExact_pow Float (k := k.log2) (by omega)
      have hdouble : IsExact Float (2 * ((2 ^ k.log2 : ℕ) : ℝ)) := by
        rw [Nat.cast_pow, Nat.cast_two, ← pow_succ']
        exact isExact_pow Float (by omega)
      have hk : (k : ℝ) ≤ 2 * ((2 ^ k.log2 : ℕ) : ℝ) := by
        rw [Nat.cast_pow, Nat.cast_two, ← pow_succ']
        exact_mod_cast Nat.lt_log2_self.le
      exact (Binary64.ceil_le_of_isBetween (rank_isBetween hc hk hbound hdouble) hbound).trans
        (Nat.log2_self_le hpos.ne')
    · exact (Binary64.ceil_le_size _).trans hlarge

end OutlierScoring
