import OutlierScoring.Proofs.Number.Exact
import OutlierScoring.Proofs.Number.Order

/-!
# Rounding to the digits of a float

Every operation on floats ends in the same rounding, which takes a significand of any length to the
digits that a float has room for. The digits in excess are shifted out one by one, and two bits tell
what was cut off; whether there was anything at all is what they tell here (`Represents`), and each
shift keeps it.

What comes of the rounding is on the same side of every float as the exact number was
(`bounds_of_represents`): at the exponent of the rounded number a float is either a multiple of the
last digit, or it lies below everything that fills the room for digits. Such a law about bounds is
weaker than rounding to nearest, but it composes (`Rounds`), and a number that is the value of a
float satisfies it only by not being rounded at all (`Rounds.valueOf_eq`).
-/

namespace OutlierScoring.Binary64

open Float.Model.UnpackedFloat
open Float.Model (Format UnpackedFloat totalExponent)

/-! ### Values -/

/-- A magnitude with a sign. -/
def signed (sign : Sign) (r : ℝ) : ℝ :=
  match sign with
  | .positive => r
  | .negative => -r

/-- The real number that an unpacked float stands for, if it is finite. -/
noncomputable def valueOf : UnpackedFloat → ℝ
  | .finite sign m q _ => signed sign (m * ((2 : ℕ) : ℝ) ^ q)
  | _ => 0

/-- A finite float stands for the real number. -/
inductive IsValue (r : ℝ) : Prop
  | intro (m : ℕ) (q : ℤ) : m < 2 * hiddenBit → -1074 ≤ q → q ≤ 971 → |r| = m * 2 ^ q → IsValue r

theorem signed_nonneg {r : ℝ} (h : 0 ≤ r) (sign : Sign) : |signed sign r| = r := by
  cases sign
  · exact (abs_neg r).trans (abs_of_nonneg h)
  · exact abs_of_nonneg h

theorem signed_neg (sign : Sign) (r : ℝ) : signed (-sign) r = -signed sign r := by
  cases sign
  · show r = - -r
    ring
  · rfl

theorem valueOf_neg (u : UnpackedFloat) : valueOf u.neg = -valueOf u := by
  cases u with
  | finite sign => exact signed_neg sign _
  | _ => exact neg_zero.symm

theorem IsValue.neg {r : ℝ} (h : IsValue r) : IsValue (-r) := by
  obtain ⟨m, q, hm, hlow, hhigh, hr⟩ := h
  exact ⟨m, q, hm, hlow, hhigh, (abs_neg r).trans hr⟩

theorem isValue_valueOf {u : UnpackedFloat} (h : IsRepresentable u) : IsValue (valueOf u) := by
  have hzero : IsValue 0 := ⟨0, 0, by decide, by omega, by omega, by simp⟩
  cases u with
  | finite sign m q hpos =>
    exact ⟨m, q, h.1.lt, h.1.le, h.2, signed_nonneg (by positivity) sign⟩
  | _ => exact hzero

/-! ### Shifting -/

/-- The digits stand for the number, with the rest of it cut off. The two bits tell whether there is
a rest. -/
structure Represents (em : ExtendedMantissa) (e : ℤ) (r : ℝ) : Prop where
  le : em.mantissa * 2 ^ e ≤ r
  lt : r < (em.mantissa + 1) * 2 ^ e
  exact_iff : em.roundBit = false ∧ em.stickyBit = false ↔ r = em.mantissa * 2 ^ e

theorem Represents.shiftRightOne {em : ExtendedMantissa} {e : ℤ} {r : ℝ}
    (h : Represents em e r) : Represents em.shiftRightOne (e + 1) r := by
  have hpow : (0 : ℝ) < 2 ^ e := by positivity
  have hdouble : (2 : ℝ) ^ (e + 1) = 2 * 2 ^ e := by
    rw [zpow_add_one₀ two_ne_zero, mul_comm]
  have hsplit : (em.mantissa : ℝ) = 2 * (em.mantissa / 2 : ℕ) + (em.mantissa % 2 : ℕ) := by
    exact_mod_cast (Nat.div_add_mod em.mantissa 2).symm
  have hbit : ((em.mantissa % 2 : ℕ) : ℝ) ≤ 1 := by
    exact_mod_cast Nat.le_of_lt_succ (Nat.mod_lt em.mantissa two_pos)
  have hbit' : (0 : ℝ) ≤ (em.mantissa % 2 : ℕ) := Nat.cast_nonneg _
  obtain ⟨hle, hlt, hexact⟩ := h
  rw [hsplit] at hle hlt hexact
  constructor
  · show ((em.mantissa / 2 : ℕ) : ℝ) * 2 ^ (e + 1) ≤ r
    rw [hdouble]
    nlinarith
  · show r < ((em.mantissa / 2 : ℕ) + 1 : ℝ) * 2 ^ (e + 1)
    rw [hdouble]
    nlinarith
  · show ((em.mantissa % 2 != 0) = false ∧ (em.roundBit || em.stickyBit) = false) ↔
      r = ((em.mantissa / 2 : ℕ) : ℝ) * 2 ^ (e + 1)
    rw [hdouble, Bool.or_eq_false_iff, hexact]
    rcases Nat.mod_two_eq_zero_or_one em.mantissa with hzero | hone
    · rw [hzero]
      simp only [bne_self_eq_false, true_and, Nat.cast_zero, add_zero]
      rw [mul_comm (2 : ℝ) ((em.mantissa / 2 : ℕ) : ℝ), mul_assoc]
    · rw [hone] at hle ⊢
      refine ⟨fun h ↦ absurd h.1 (by decide), fun h ↦ ?_⟩
      -- The digit that was shifted out is part of the rest.
      rw [h, Nat.cast_one] at hle
      nlinarith

theorem Represents.shiftRight {em : ExtendedMantissa} {e : ℤ} {r : ℝ} (h : Represents em e r)
    (n : ℕ) : Represents (em >>> n) (e + n) r := by
  show Represents (n.repeat ExtendedMantissa.shiftRightOne em) (e + n) r
  induction n with
  | zero =>
    rw [Nat.cast_zero, add_zero]
    exact h
  | succ n ih =>
    rw [Nat.cast_succ, ← add_assoc]
    exact ih.shiftRightOne

/-- Rounding adds one to the digits at most, and nothing where nothing was cut off. -/
theorem roundedMantissa_cases (em : ExtendedMantissa) :
    em.roundedMantissa = em.mantissa ∨ em.roundedMantissa = em.mantissa + 1 ∧
      ¬(em.roundBit = false ∧ em.stickyBit = false) := by
  rcases em with ⟨m, _ | _, _ | _⟩
  · exact .inl rfl
  · exact .inl rfl
  · show m + m % 2 = m ∨ m + m % 2 = m + 1 ∧ _
    rcases Nat.mod_two_eq_zero_or_one m with h | h
    · exact .inl (by rw [h, Nat.add_zero])
    · exact .inr ⟨by rw [h], nofun⟩
  · exact .inr ⟨rfl, nofun⟩

/-- Digits that a float has room for at an exponent, and not fewer than necessary. -/
structure Fits (m : ℕ) (q : ℤ) : Prop where
  lt : m < 2 * hiddenBit
  le : -1074 ≤ q
  normal : hiddenBit ≤ m ∨ q = -1074

/-- Digits are shifted to where a float has room for them, if there are enough of them to begin
with. -/
theorem fits_shift {m : ℕ} {e : ℤ} (h : e ≤ -1074 ∨ hiddenBit ≤ m) :
    Fits (m / 2 ^ (Format.binary64.targetExponent (totalExponent m e) - e).toNat)
      (e + (Format.binary64.targetExponent (totalExponent m e) - e).toNat) := by
  obtain ⟨s, hs⟩ : ∃ s, s = (Format.binary64.targetExponent (totalExponent m e) - e).toNat :=
    ⟨_, rfl⟩
  have hshift : (s : ℤ) = max (max ((m.log2 : ℤ) - 52) (-1074 - e)) 0 := by
    rw [hs, targetExponent_eq, totalExponent]
    omega
  rw [← hs]
  refine ⟨?_, by omega, ?_⟩
  · have hlt : m < 2 ^ (m.log2 + 1) := Nat.lt_log2_self
    rw [Nat.div_lt_iff_lt_mul (Nat.two_pow_pos s)]
    calc m < 2 ^ (m.log2 + 1) := hlt
      _ ≤ 2 ^ (53 + s) := Nat.pow_le_pow_right two_pos (by omega)
      _ = 2 * hiddenBit * 2 ^ s := by rw [Nat.pow_add]; rfl
  · by_cases hleast : e + s = -1074
    · exact .inr hleast
    · -- Something is shifted out only to leave all the digits that there is room for.
      left
      rcases Nat.eq_zero_or_pos s with rfl | hpos
      · rw [Nat.pow_zero, Nat.div_one]
        exact h.resolve_left (by omega)
      · have hle : 2 ^ m.log2 ≤ m := Nat.log2_self_le (by rintro rfl; simp at hshift; omega)
        rw [Nat.le_div_iff_mul_le (Nat.two_pow_pos s)]
        calc hiddenBit * 2 ^ s = 2 ^ (52 + s) := by rw [Nat.pow_add]; rfl
          _ = 2 ^ m.log2 := congrArg _ (by omega)
          _ ≤ m := hle

/-! ### Rounding -/

theorem mantissa_le_roundedMantissa (em : ExtendedMantissa) :
    em.mantissa ≤ em.roundedMantissa := by
  rcases roundedMantissa_cases em with h | ⟨h, -⟩ <;> omega

/-- A float below digits that fill all the room has a lesser exponent or fewer of them. -/
theorem lt_of_exponent_lt {m M : ℕ} {q e : ℤ} (hm : m < 2 * hiddenBit) (hM : hiddenBit ≤ M)
    (hlt : q < e) : (m * 2 ^ q : ℝ) < M * 2 ^ e := by
  have hpow : (0 : ℝ) < 2 ^ q := by positivity
  have hm : (m : ℝ) < 2 * hiddenBit := by exact_mod_cast hm
  calc (m * 2 ^ q : ℝ) < 2 * hiddenBit * 2 ^ q := by gcongr
    _ = hiddenBit * 2 ^ (q + 1) := by
      rw [zpow_add_one₀ two_ne_zero]
      ring
    _ ≤ M * 2 ^ e := by
      gcongr
      · exact one_le_two
      · exact Int.add_one_le_of_lt hlt

/-- A number and its rounded digits are on the same side of every float. -/
theorem bounds_of_represents {em : ExtendedMantissa} {e : ℤ} {r : ℝ} (h : Represents em e r)
    (hfits : Fits em.mantissa e) {m : ℕ} {q : ℤ} (hm : m < 2 * hiddenBit) (hq : -1074 ≤ q) :
    (r ≤ m * 2 ^ q → (em.roundedMantissa * 2 ^ e : ℝ) ≤ m * 2 ^ q) ∧
      (m * 2 ^ q ≤ r → (m * 2 ^ q : ℝ) ≤ em.roundedMantissa * 2 ^ e) := by
  have hpow : (0 : ℝ) < 2 ^ e := by positivity
  have hle : (em.mantissa * 2 ^ e : ℝ) ≤ em.roundedMantissa * 2 ^ e := by
    gcongr
    exact mantissa_le_roundedMantissa em
  rcases Int.lt_or_le q e with hlt | hge
  · -- The float has a lesser exponent, so that it lies below all the digits.
    have hbelow := lt_of_exponent_lt hm (hfits.normal.resolve_right (by omega)) hlt
    exact ⟨fun hr ↦ absurd (hbelow.trans_le h.le) (not_lt.mpr hr), fun _ ↦ hbelow.le.trans hle⟩
  · -- The float is a multiple of the last digit.
    obtain ⟨k, hk⟩ := Int.eq_ofNat_of_zero_le (Int.sub_nonneg_of_le hge)
    have hmultiple : (m * 2 ^ q : ℝ) = (m * 2 ^ k : ℕ) * 2 ^ e := by
      rw [show q = k + e by omega, zpow_add₀ two_ne_zero]
      push_cast
      rw [zpow_natCast]
      ring
    rw [hmultiple]
    refine ⟨fun hr ↦ ?_, fun hr ↦ ?_⟩
    · rcases roundedMantissa_cases em with heq | ⟨heq, hrest⟩
      · rw [heq]
        exact h.le.trans hr
      · have hless : (em.mantissa * 2 ^ e : ℝ) < (m * 2 ^ k : ℕ) * 2 ^ e :=
          (lt_of_le_of_ne h.le fun h' ↦ hrest (h.exact_iff.mpr h'.symm)).trans_le hr
        have hless : em.mantissa < m * 2 ^ k := by
          exact_mod_cast lt_of_mul_lt_mul_right hless hpow.le
        rw [heq]
        gcongr
        exact hless
    · have hless : m * 2 ^ k < em.mantissa + 1 := by
        exact_mod_cast lt_of_mul_lt_mul_right (hr.trans_lt h.lt) hpow.le
      refine le_trans ?_ hle
      gcongr
      exact Nat.le_of_lt_succ hless

/-- Where rounding up has carried into one more digit, the last digit is zero and is shifted out;
otherwise nothing is left to do. -/
theorem fits_carry {m : ℕ} {e : ℤ} (hm : m ≤ 2 * hiddenBit) (he : -1074 ≤ e)
    (hnormal : hiddenBit ≤ m ∨ e = -1074) :
    Fits (shiftToTargetExponent .binary64 m e .exact).1.mantissa
        (shiftToTargetExponent .binary64 m e .exact).2 ∧
      ((shiftToTargetExponent .binary64 m e .exact).1.mantissa *
        2 ^ (shiftToTargetExponent .binary64 m e .exact).2 : ℝ) = m * 2 ^ e := by
  obtain ⟨s, hs⟩ : ∃ s, s = (Format.binary64.targetExponent (totalExponent m e) - e).toNat :=
    ⟨_, rfl⟩
  rw [shiftToTargetExponent, shiftToExponent, ← hs, mantissa_shiftRight]
  show Fits (m / 2 ^ s) (e + s) ∧ ((m / 2 ^ s : ℕ) * 2 ^ (e + s) : ℝ) = m * 2 ^ e
  rcases Nat.eq_or_lt_of_le hm with rfl | hlt
  · have hlog : (2 * hiddenBit).log2 = 53 := by decide
    obtain rfl : s = 1 := by
      rw [hs, targetExponent_eq, totalExponent, hlog]
      omega
    have hhalf : 2 * hiddenBit / 2 ^ 1 = hiddenBit := by decide
    rw [hhalf]
    refine ⟨⟨by decide, by omega, .inl le_rfl⟩, ?_⟩
    rw [Nat.cast_one, zpow_add_one₀ two_ne_zero]
    push_cast
    ring
  · have hlog : m.log2 < 53 := by
      rcases Nat.eq_zero_or_pos m with rfl | hpos
      · decide
      · exact (Nat.log2_lt (Nat.ne_of_gt hpos)).mpr hlt
    obtain rfl : s = 0 := by
      rw [hs, targetExponent_eq, totalExponent]
      omega
    rw [Nat.pow_zero, Nat.div_one, Nat.cast_zero, add_zero]
    exact ⟨⟨hlt, he, hnormal⟩, rfl⟩

/-- The float with the given digits. -/
def ofDigits (sign : Sign) (m : ℕ) (q : ℤ) : UnpackedFloat :=
  if h : m = 0 then .zero sign else .finite sign m q (Nat.pos_of_ne_zero h)

/-- What rounding a number in digits comes to: digits that fit, on the same side of every float. -/
theorem exists_roundWithAccuracy_eq (sign : Sign) {M : ℕ} {e : ℤ} {accuracy : Accuracy} {r : ℝ}
    (h : Represents (.ofMantissaAndAccuracy M accuracy) e r) (hM : e ≤ -1074 ∨ hiddenBit ≤ M) :
    ∃ m q, roundWithAccuracy .binary64 sign M e accuracy = ofDigits sign m q ∧ Fits m q ∧
      ∀ {m' : ℕ} {q' : ℤ}, m' < 2 * hiddenBit → -1074 ≤ q' →
        (r ≤ m' * 2 ^ q' → (m * 2 ^ q : ℝ) ≤ m' * 2 ^ q') ∧
          (m' * 2 ^ q' ≤ r → (m' * 2 ^ q' : ℝ) ≤ m * 2 ^ q) := by
  obtain ⟨em, hem⟩ : ∃ em, em = ExtendedMantissa.ofMantissaAndAccuracy M accuracy := ⟨_, rfl⟩
  have hmantissa : em.mantissa = M := by
    rw [hem]
    rcases accuracy with _ | (_ | _ | _) <;> rfl
  obtain ⟨s, hs⟩ : ∃ s, s = (Format.binary64.targetExponent (totalExponent M e) - e).toNat :=
    ⟨_, rfl⟩
  have hfirst := (hem ▸ h).shiftRight s
  have hfits : Fits (em >>> s).mantissa (e + s) := by
    rw [mantissa_shiftRight, hmantissa, hs]
    exact fits_shift hM
  have hcases := roundedMantissa_cases (em >>> s)
  obtain ⟨hlast, hvalue⟩ := fits_carry (m := (em >>> s).roundedMantissa) (e := e + s)
    (by have := hfits.lt; omega) hfits.le
    (hfits.normal.imp_left fun h ↦ h.trans (mantissa_le_roundedMantissa _))
  refine ⟨_, _, ?_, hlast, fun hm' hq' ↦ ?_⟩
  · rw [roundWithAccuracy]
    have hshift : shiftToTargetExponent .binary64 M e accuracy = (em >>> s, e + s) := by
      rw [shiftToTargetExponent, shiftToExponent, ← hs, ← hem]
    rw [hshift]
    rfl
  · rw [hvalue]
    exact bounds_of_represents hfirst hfits hm' hq'

theorem valueOf_ofDigits (sign : Sign) (m : ℕ) (q : ℤ) :
    valueOf (ofDigits sign m q) = signed sign (m * 2 ^ q) := by
  rw [ofDigits]
  split
  · rename_i h
    rw [h, Nat.cast_zero, zero_mul]
    cases sign
    · exact neg_zero.symm
    · rfl
  · rfl

theorem ofDigits_neg (m : ℕ) (q : ℤ) :
    ofDigits .negative m q = (ofDigits .positive m q).neg := by
  rw [ofDigits, ofDigits]
  split <;> rfl

/-- The unpacked float is the number, rounded: with values of floats on both sides of the number it
is finite, and lies between them. -/
def Rounds (r : ℝ) (u : UnpackedFloat) : Prop :=
  ∀ ⦃low high : ℝ⦄, IsValue low → IsValue high → low ≤ r → r ≤ high →
    u.isFinite = true ∧ IsRepresentable u ∧ low ≤ valueOf u ∧ valueOf u ≤ high

theorem isFinite_neg {u : UnpackedFloat} (h : u.isFinite = true) : u.neg.isFinite = true := by
  cases u with
  | finite | zero => rfl
  | _ => exact absurd h nofun

theorem Rounds.neg {r : ℝ} {u : UnpackedFloat} (h : Rounds r u) : Rounds (-r) u.neg := by
  intro low high hlow hhigh hle hge
  obtain ⟨hfinite, hrepresentable, hl, hh⟩ :=
    h hhigh.neg hlow.neg (by linarith) (by linarith)
  rw [valueOf_neg]
  exact ⟨isFinite_neg hfinite, isRepresentable_neg hrepresentable, by linarith, by linarith⟩

/-- A number that is the value of a float is not rounded. -/
theorem Rounds.valueOf_eq {r : ℝ} {u : UnpackedFloat} (h : Rounds r u) (hr : IsValue r) :
    u.isFinite = true ∧ IsRepresentable u ∧ valueOf u = r := by
  obtain ⟨hfinite, hrepresentable, hle, hge⟩ := h hr hr le_rfl le_rfl
  exact ⟨hfinite, hrepresentable, le_antisymm hge hle⟩

theorem rounds_self {u : UnpackedFloat} (hfinite : u.isFinite = true) (h : IsRepresentable u) :
    Rounds (valueOf u) u := fun _ _ _ _ hle hge ↦ ⟨hfinite, h, hle, hge⟩

theorem rounds_positive {m : ℕ} {q : ℤ} (hfits : Fits m q) {r : ℝ} (hr : 0 ≤ r)
    (h : ∀ {m' : ℕ} {q' : ℤ}, m' < 2 * hiddenBit → -1074 ≤ q' →
      (r ≤ m' * 2 ^ q' → (m * 2 ^ q : ℝ) ≤ m' * 2 ^ q') ∧
        (m' * 2 ^ q' ≤ r → (m' * 2 ^ q' : ℝ) ≤ m * 2 ^ q)) :
    Rounds r (ofDigits .positive m q) := by
  intro low high hlow hhigh hle hge
  obtain ⟨m', q', hm', hq', hmax, habs⟩ := hhigh
  rw [abs_of_nonneg (hr.trans hge)] at habs
  have hupper : (m * 2 ^ q : ℝ) ≤ m' * 2 ^ q' := (h hm' hq').1 (habs ▸ hge)
  have hlower : low ≤ m * 2 ^ q := by
    rcases le_total low 0 with hneg | hpos
    · exact hneg.trans (by positivity)
    · obtain ⟨m', q', hm', hq', -, habs⟩ := hlow
      rw [abs_of_nonneg hpos] at habs
      rw [habs] at hle ⊢
      exact (h hm' hq').2 hle
  rw [valueOf_ofDigits, habs]
  refine ⟨?_, ?_, hlower, hupper⟩
  · rw [ofDigits]
    split <;> rfl
  · rw [ofDigits]
    split
    · trivial
    · rename_i hm
      refine ⟨⟨Nat.pos_of_ne_zero hm, hfits.lt, hfits.le, hfits.normal⟩, ?_⟩
      -- A larger exponent would take the number above the bound.
      by_contra hlarge
      have hless := lt_of_exponent_lt hm' (hfits.normal.resolve_right (by omega))
        (show q' < q by omega)
      exact absurd hupper (not_le.mpr hless)

/-- The unpacked float is on the side of zero that the sign tells, or zero itself. -/
def IsOn (sign : Sign) : UnpackedFloat → Prop
  | .notANumber => False
  | .infinity sign' => sign' = sign
  | .zero _ => True
  | .finite sign' .. => sign' = sign

/-- Packing may make an infinity of a number that is too large, of the same sign. -/
theorem isOn_unpack_pack (sign : Sign) {m : ℕ} {q : ℤ} (h : Fits m q) :
    IsOn sign (unpack .binary64 (pack .binary64 (ofDigits sign m q))) := by
  rw [ofDigits]
  split
  · rw [unpack_pack (u := .zero sign) trivial]
    trivial
  · rename_i hm
    have hpos := Nat.pos_of_ne_zero hm
    rcases Int.lt_or_le 971 q with hlarge | hq
    · rw [pack, exponentBias_eq, if_pos (by simp; omega), unpack_packedInfinity]
      rfl
    · rw [unpack_pack (u := .finite sign m q hpos) ⟨⟨hpos, h.lt, h.le, h.normal⟩, hq⟩]
      rfl

/-- The unpacked float is the number of the given sign and magnitude, rounded. If it is too large
for a float, then its sign at least is not lost. -/
structure RoundsOn (sign : Sign) (r : ℝ) (u : UnpackedFloat) : Prop where
  rounds : Rounds (signed sign r) u
  isOn : IsOn sign (unpack .binary64 (pack .binary64 u))

theorem Represents.nonneg {em : ExtendedMantissa} {e : ℤ} {r : ℝ} (h : Represents em e r) :
    0 ≤ r := le_trans (by positivity) h.le

/-- What is represented by digits is rounded. -/
theorem roundsOn_roundWithAccuracy (sign : Sign) {M : ℕ} {e : ℤ} {accuracy : Accuracy} {r : ℝ}
    (h : Represents (.ofMantissaAndAccuracy M accuracy) e r) (hM : e ≤ -1074 ∨ hiddenBit ≤ M) :
    RoundsOn sign r (roundWithAccuracy .binary64 sign M e accuracy) := by
  obtain ⟨m, q, heq, hfits, hbounds⟩ := exists_roundWithAccuracy_eq sign h hM
  have hpositive := rounds_positive hfits h.nonneg hbounds
  rw [heq]
  refine ⟨?_, isOn_unpack_pack sign hfits⟩
  cases sign
  · rw [ofDigits_neg]
    exact hpositive.neg
  · exact hpositive

end OutlierScoring.Binary64
