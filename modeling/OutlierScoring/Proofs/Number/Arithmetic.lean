import Mathlib
import OutlierScoring.Proofs.Number.Operations
import OutlierScoring.Proofs.Number.Rounded

/-!
# The arithmetic of floats

Floats are an `OrderedScalar` and a `RoundedScalar`: what was proved of unpacked floats is carried
over to packed ones, among which there is no number too large. A float that is given by a literal
has gone through an operation too. Naturals are multiplied by one, and decimals are divided by a
power of ten from a table.
-/

namespace OutlierScoring

open Binary64

theorem isRepresentable_float (x : Float) : IsRepresentable x.toModel.unpack :=
  isRepresentable_unpack _

theorem float_le_iff (x y : Float) : x ≤ y ↔ x.toModel.unpack.le y.toModel.unpack = true := by
  show Float.le x y = true ↔ _
  rw [Float.le, decide_eq_true_iff]
  rfl

noncomputable instance : OrderedScalar Float where
  value x := valueOf x.toModel.unpack
  lt_iff {a b} ha hb := by
    rw [float_lt_iff]
    exact lt_iff_valueOf ha hb (isRepresentable_float a) (isRepresentable_float b)
  le_iff {a b} ha hb := by
    rw [float_le_iff, le_iff_not_lt ha hb,
      lt_iff_valueOf hb ha (isRepresentable_float b) (isRepresentable_float a), not_lt]
  isFinite_of_between ha hb hlow hhigh := by
    rw [float_lt_iff] at hlow hhigh
    exact isFinite_of_between ha hb hlow hhigh
  not_lt_of_le h := by
    rw [float_le_iff] at h
    rw [float_lt_iff]
    exact not_lt_of_le h
  isNaN_of_isFinite {a} h := by
    show a.toModel.unpack.isNaN = false
    have h : a.toModel.unpack.isFinite = true := h
    cases hu : a.toModel.unpack with
    | notANumber =>
      rw [hu] at h
      cases h
    | _ => rfl

namespace Binary64

open Float.Model.UnpackedFloat
open Float.Model (Format UnpackedFloat)

/-- An operation that packs what was rounded gives the rounded number. -/
theorem roundsTo_of_rounds {r : ℝ} {x : Float} {u : UnpackedFloat}
    (hx : x.toModel.unpack = unpack .binary64 (pack .binary64 u)) (h : Rounds r u) :
    RoundsTo r x := by
  intro low high hlow hhigh hle hge
  obtain ⟨hfinite, hrepresentable, hlower, hupper⟩ :=
    h (isValue_valueOf (isRepresentable_float low)) (isValue_valueOf (isRepresentable_float high))
      hle hge
  rw [unpack_pack hrepresentable] at hx
  show x.toModel.unpack.isFinite = true ∧ valueOf low.toModel.unpack ≤ valueOf x.toModel.unpack ∧
    valueOf x.toModel.unpack ≤ valueOf high.toModel.unpack
  rw [hx]
  exact ⟨hfinite, hlower, hupper⟩

/-- What need not be rounded is not. -/
theorem value_of_rounds {r : ℝ} {x : Float} {u : UnpackedFloat}
    (hx : x.toModel.unpack = unpack .binary64 (pack .binary64 u)) (h : Rounds r u)
    (hr : IsValue r) : Scalar.isFinite x = true ∧ OrderedScalar.value x = r := by
  obtain ⟨hfinite, hrepresentable, hvalue⟩ := h.valueOf_eq hr
  rw [unpack_pack hrepresentable] at hx
  show x.toModel.unpack.isFinite = true ∧ valueOf x.toModel.unpack = r
  rw [hx]
  exact ⟨hfinite, hvalue⟩

section Operations

variable {a b : Float} (ha : Scalar.isFinite a = true) (hb : Scalar.isFinite b = true)

include ha hb

theorem roundsTo_add : RoundsTo (OrderedScalar.value a + OrderedScalar.value b) (a + b) :=
  roundsTo_of_rounds rfl (rounds_add ha hb (isRepresentable_float a) (isRepresentable_float b))

theorem roundsTo_sub : RoundsTo (OrderedScalar.value a - OrderedScalar.value b) (a - b) :=
  roundsTo_of_rounds rfl (rounds_sub ha hb (isRepresentable_float a) (isRepresentable_float b))

theorem roundsTo_mul : RoundsTo (OrderedScalar.value a * OrderedScalar.value b) (a * b) :=
  roundsTo_of_rounds rfl (rounds_mul ha hb (isRepresentable_float a) (isRepresentable_float b))

theorem roundsTo_div (hne : OrderedScalar.value b ≠ 0) :
    RoundsTo (OrderedScalar.value a / OrderedScalar.value b) (a / b) :=
  roundsTo_of_rounds rfl (rounds_div ha hb hne)

end Operations

/-- Powers of two are floats, as far as the exponents go. -/
theorem exists_value_eq (k : ℤ) (hlow : -1022 ≤ k) (hhigh : k ≤ 1023) :
    ∃ x : Float, Scalar.isFinite x = true ∧ OrderedScalar.value x = 2 ^ k := by
  have hround := (roundsOn_round .positive one_pos k).rounds
  rw [Nat.cast_one, one_mul] at hround
  refine ⟨⟨.pack (.round .binary64 .positive 1 k)⟩, value_of_rounds rfl hround ?_⟩
  have habs : |(2 : ℝ) ^ k| = 2 ^ k := abs_of_pos (by positivity)
  rcases Int.lt_or_le 971 k with hlarge | hsmall
  · refine ⟨2 ^ (k - 971).toNat, 971, ?_, by omega, by omega, ?_⟩
    · calc 2 ^ (k - 971).toNat ≤ 2 ^ 52 := Nat.pow_le_pow_right two_pos (by omega)
        _ < 2 * hiddenBit := by decide
    · rw [habs, Nat.cast_pow, Nat.cast_two, ← zpow_natCast, ← zpow_add₀ two_ne_zero]
      congr 1
      omega
  · exact ⟨1, k, by decide, by omega, hsmall, by rw [habs, Nat.cast_one, one_mul]⟩

/-! ### Literals -/

/-- Naturals with few digits are floats. -/
theorem value_toFloat {n : ℕ} (h : n < 2 * hiddenBit) :
    Scalar.isFinite n.toUInt64.toFloat = true ∧ OrderedScalar.value n.toUInt64.toFloat = n := by
  have hn : n.toUInt64.toNat = n := by
    rw [Nat.toUInt64_eq, UInt64.toNat_ofNat', Nat.mod_eq_of_lt (h.trans (by decide))]
  have hround := rounds_normalize n 0 .positive
  rw [zpow_zero, mul_one, Int.cast_natCast] at hround
  refine value_of_rounds (u := .normalize .binary64 n 0 .positive) ?_ hround
    ⟨n, 0, h, by omega, by omega, by simp⟩
  show unpack .binary64 (pack .binary64
    (UnpackedFloat.normalize .binary64 (n.toUInt64.toNat : ℤ) 0 .positive)) = _
  rw [hn]

theorem value_one : OrderedScalar.value (1 : Float) = 1 := by
  show ((4503599627370496 : ℕ) : ℝ) * 2 ^ (-52 : ℤ) = 1
  norm_num

theorem roundsTo_ofNat (n : ℕ) : RoundsTo (n : ℝ) (Float.ofNat n) := by
  show RoundsTo (n : ℝ) (Float.ofScientific n false 0)
  rw [Float.ofScientific]
  split
  · rename_i h
    obtain ⟨hfinite, hvalue⟩ := value_toFloat h.1
    have hround := roundsTo_mul hfinite (b := 1) rfl
    rw [hvalue, value_one, mul_one] at hround
    exact hround
  · rename_i h
    have hlarge : 2 * hiddenBit ≤ n := not_lt.mp fun hlt ↦ h ⟨hlt, by omega⟩
    have hpos : 0 < n := lt_of_lt_of_le (by decide) hlarge
    have hdigits : hiddenBit ≤ n <<< 53 * 10 ^ 0 := by
      rw [Nat.shiftLeft_eq]
      calc hiddenBit ≤ n := by omega
        _ ≤ n * 2 ^ 53 * 10 ^ 0 := by omega
    have hround := @rounds_product .positive (n <<< 53) (10 ^ 0) (-53) 0 (.inr hdigits)
    have hvalue : ((n <<< 53 : ℕ) * 2 ^ (-53 : ℤ) * ((10 ^ 0 : ℕ) * 2 ^ (0 : ℤ)) : ℝ) = n := by
      rw [Nat.pow_zero, Nat.cast_one, zpow_zero, mul_one, mul_one]
      simpa only [zpow_zero, mul_one, zero_sub, Nat.cast_ofNat] using shiftLeft_value n 53 0
    rw [hvalue] at hround
    refine roundsTo_of_rounds (u := .ofScientific .binary64 n 0) rfl ?_
    have hsmall : ¬(0 : ℤ) < -((2 ^ Format.binary64.exponentBits : ℤ) + n.log2) := by
      show ¬(0 : ℤ) < -(2048 + n.log2)
      omega
    rw [UnpackedFloat.ofScientific, dif_neg hpos.ne', if_neg (by decide), if_neg hsmall,
      if_pos le_rfl]
    exact hround

/-- Naturals with few digits are not rounded. -/
theorem value_ofNat {n : ℕ} (h : n < 2 ^ 53) :
    Scalar.isFinite (Float.ofNat n) = true ∧ OrderedScalar.value (Float.ofNat n) = n := by
  obtain ⟨hfinite, hvalue⟩ := value_toFloat (n := n) h
  obtain ⟨hcast, hlow, hhigh⟩ := roundsTo_ofNat n hfinite hfinite hvalue.le hvalue.ge
  exact ⟨hcast, hvalue ▸ le_antisymm hhigh hlow⟩

/-- Doubling raises the exponent, for which there is room below the greatest floats. -/
theorem IsValue.two_mul {r : ℝ} (h : IsValue r) (hr : |r| ≤ 2 ^ 1000) : IsValue (2 * r) := by
  obtain ⟨m, q, hm, hlow, hhigh, hvalue⟩ := h
  have hdouble : |2 * r| = 2 * (m * 2 ^ q) := by rw [abs_mul, hvalue, abs_two]
  rcases Int.lt_or_le q 971 with hq | hq
  · refine ⟨m, q + 1, hm, by omega, by omega, ?_⟩
    rw [hdouble, zpow_add_one₀ two_ne_zero]
    ring
  · obtain rfl : q = 971 := le_antisymm hhigh hq
    have hsmall : (m : ℝ) ≤ 2 ^ 29 := by
      have hsplit : (2 : ℝ) ^ 1000 = 2 ^ 29 * 2 ^ (971 : ℤ) := by rw [zpow_ofNat, ← pow_add]
      rw [hvalue, hsplit] at hr
      exact le_of_mul_le_mul_right hr (by positivity)
    have hsmall : m ≤ 2 ^ 29 := by exact_mod_cast hsmall
    refine ⟨2 * m, 971, ?_, by omega, le_rfl, ?_⟩
    · calc 2 * m ≤ 2 * 2 ^ 29 := Nat.mul_le_mul_left 2 hsmall
        _ < 2 * hiddenBit := by decide
    · rw [hdouble, Nat.cast_mul, Nat.cast_two, mul_assoc]

theorem value_two_mul {a : Float} (ha : Scalar.isFinite a = true)
    (h : |OrderedScalar.value a| ≤ 2 ^ 1000) :
    Scalar.isFinite (Scalar.two * a) = true ∧
      OrderedScalar.value (Scalar.two * a) = 2 * OrderedScalar.value a := by
  obtain ⟨hfinite, hvalue⟩ := value_ofNat (n := 2) (by decide)
  have hround := rounds_mul (u := (Float.ofNat 2).toModel.unpack) hfinite ha
    (isRepresentable_float _) (isRepresentable_float a)
  have hproduct : valueOf (Float.ofNat 2).toModel.unpack * valueOf a.toModel.unpack =
      2 * OrderedScalar.value a := congrArg (· * OrderedScalar.value a) hvalue
  rw [hproduct] at hround
  exact value_of_rounds rfl hround ((isValue_valueOf (isRepresentable_float a)).two_mul h)

/-- The tenth power of ten, as it is kept in a table. -/
theorem unpack_power :
    (Float.exactlyRepresentablePowersOfTen[10] : Float).toModel.unpack =
      .finite .positive 5242880000000000 (-19) (by decide) := by
  rfl

theorem roundsTo_eulerGamma : RoundsTo 0.5772156649 (IsolationTree.eulerGamma : Float) := by
  let power : Float := Float.exactlyRepresentablePowersOfTen[10]
  obtain ⟨hfinite, hvalue⟩ := value_toFloat (n := 5772156649) (by decide)
  have hfinite' : Scalar.isFinite power = true := by
    show power.toModel.unpack.isFinite = true
    rw [unpack_power]
    rfl
  have hvalue' : OrderedScalar.value power = 10 ^ 10 := by
    show valueOf power.toModel.unpack = 10 ^ 10
    rw [unpack_power]
    show ((5242880000000000 : ℕ) : ℝ) * 2 ^ (-19 : ℤ) = 10 ^ 10
    norm_num
  have hround := roundsTo_div hfinite hfinite' (by rw [hvalue']; norm_num)
  have hquotient : (0.5772156649 : ℝ) = (5772156649 : ℕ) / 10 ^ 10 := by norm_num
  rw [hvalue, hvalue', ← hquotient] at hround
  exact hround

/-! ### Signs of floats -/

theorem zero_le_float_iff (x : Float) : 0 ≤ x ↔ IsOn .positive x.toModel.unpack :=
  (float_le_iff 0 x).trans (zero_le_iff _)

theorem float_le_zero_iff (x : Float) : x ≤ 0 ↔ IsOn .negative x.toModel.unpack :=
  (float_le_iff x 0).trans (le_zero_iff _)

theorem unpack_neg (x : Float) : (-x).toModel.unpack = x.toModel.unpack.neg :=
  unpack_pack (isRepresentable_neg (isRepresentable_float x))

theorem zero_lt_float_iff {x : Float} (h : Scalar.isFinite x = true) :
    0 < x ↔ 0 < valueOf x.toModel.unpack :=
  OrderedScalar.lt_iff (a := (0 : Float)) rfl h

end Binary64

noncomputable instance : RoundedScalar Float where
  isFinite_zero := rfl
  value_zero := rfl
  isFinite_one := rfl
  value_one := value_one
  exists_value_eq := exists_value_eq
  neg {a} ha := by
    show (-a).toModel.unpack.isFinite = true ∧
      valueOf (-a).toModel.unpack = -valueOf a.toModel.unpack
    rw [unpack_neg, valueOf_neg]
    exact ⟨isFinite_neg ha, rfl⟩
  value_natCast := value_ofNat
  natCast := roundsTo_ofNat
  two_mul := value_two_mul
  add := roundsTo_add
  sub := roundsTo_sub
  mul := roundsTo_mul
  div := roundsTo_div
  eulerGamma := roundsTo_eulerGamma
  add_nonneg {a b} ha hb := by
    have hsum := isOn_add ((zero_le_float_iff a).mp ha) ((zero_le_float_iff b).mp hb)
      (isRepresentable_float a) (isRepresentable_float b)
    exact (zero_le_float_iff (a + b)).mpr hsum
  neg_nonpos {a} ha := by
    have hneg := ((zero_le_float_iff a).mp ha).neg
    exact (float_le_zero_iff (-a)).mpr (unpack_neg a ▸ hneg)
  div_nonneg {a b} ha hb hpos := by
    have hquotient := isOn_div ((zero_le_float_iff a).mp ha) hb ((zero_lt_float_iff hb).mp hpos)
    exact (zero_le_float_iff (a / b)).mpr hquotient
  div_nonpos {a b} ha hb hpos := by
    have hquotient := isOn_div ((float_le_zero_iff a).mp ha) hb ((zero_lt_float_iff hb).mp hpos)
    exact (float_le_zero_iff (a / b)).mpr hquotient

end OutlierScoring
