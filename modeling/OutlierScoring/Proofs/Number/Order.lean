import OutlierScoring.Proofs.Number.Lawful
import OutlierScoring.Proofs.Number.Rounding

/-!
# The order of floats

A float is below another exactly if their difference is below zero (`sub_neg_iff`), although the
difference is rounded. Near zero floats are as close to each other as their differences are, so that
no difference of two floats is rounded to zero; and where a difference is too large it becomes
infinite, but keeps its sign. Infinities and what is not a number at all obey the law as well.

A negative is not rounded at all, so that it turns the order around (`neg_lt_neg_iff`).
-/

namespace OutlierScoring.Binary64

open Float.Model.UnpackedFloat
open Float.Model (Format UnpackedFloat totalExponent)

/-! ### Forms of unpacked floats -/

/-- Significand and exponent are those of a finite float, unless there is neither. -/
def IsRepresentable : UnpackedFloat → Prop
  | .finite _ m q _ => IsForm m q ∧ q ≤ 971
  | _ => True

theorem toNat_hidden (v : BitVec 52) : (1#1 ++ v).toNat = hiddenBit + v.toNat := by
  rw [BitVec.toNat_append, ← Nat.shiftLeft_add_eq_or_of_lt v.isLt]
  rfl

theorem isRepresentable_unpack (b : BitVec Format.binary64.numBits) :
    IsRepresentable (unpack .binary64 b) := by
  have hfraction : (unpackMantissa b).toNat < hiddenBit := (unpackMantissa b).isLt
  have hbits : (unpackExponent b).toNat < 2048 := (unpackExponent b).isLt
  rw [unpack]
  simp only [exponentBias_eq]
  split
  · split <;> trivial
  rename_i hmax
  have hmax : (unpackExponent b).toNat ≠ 2047 := fun h ↦ hmax (BitVec.eq_of_toNat_eq h)
  split
  · rename_i hzero
    have hzero : (unpackExponent b).toNat = 0 := congrArg BitVec.toNat hzero
    split
    · trivial
    · rename_i hpos
      have hpos : 0 < (unpackMantissa b).toNat := by
        rcases Nat.eq_zero_or_pos (unpackMantissa b).toNat with h | h
        · exact absurd (BitVec.eq_of_toNat_eq h) hpos
        · exact h
      exact ⟨⟨hpos, by omega, by omega, .inr (by omega)⟩, by omega⟩
  · rename_i hzero
    have hzero : (unpackExponent b).toNat ≠ 0 := fun h ↦ hzero (BitVec.eq_of_toNat_eq h)
    have hsum := toNat_hidden (unpackMantissa b)
    refine ⟨⟨?_, ?_, ?_, .inl ?_⟩, ?_⟩ <;> omega

/-! ### Packing -/

theorem unpackSign_packComponents (sign : Sign) (exponent : BitVec 11) (mantissa : BitVec 52) :
    unpackSign (packComponents .binary64 sign exponent mantissa) = sign.toBitVec := by
  ext i hi
  obtain rfl : i = 0 := by omega
  rw [unpackSign, packComponents, BitVec.getElem_cast, BitVec.extractLsb,
    BitVec.getElem_extractLsb', BitVec.getLsbD_append, BitVec.getLsbD_append]
  rfl

theorem ofBitVec_toBitVec (sign : Sign) : Sign.ofBitVec sign.toBitVec = sign := by
  cases sign <;> rfl

theorem unpack_packedInfinity (sign : Sign) :
    unpack .binary64 (packedInfinity .binary64 sign) = .infinity sign := by
  cases sign <;> rfl

theorem unpack_pack_normal (sign : Sign) {m : Nat} {q : Int} (hpos : 0 < m) (hlow : hiddenBit ≤ m)
    (hhigh : m < 2 * hiddenBit) (hq : -1074 ≤ q) (hq' : q ≤ 971) :
    unpack .binary64 (pack .binary64 (.finite sign m q hpos)) = .finite sign m q hpos := by
  have hlog : m.log2 = 52 := (Nat.log2_eq_iff (by omega)).mpr ⟨hlow, hhigh⟩
  have hmantissa : (BitVec.ofNat 52 m).toNat = m - hiddenBit := by
    rw [BitVec.toNat_ofNat]
    show m % hiddenBit = m - hiddenBit
    rw [Nat.mod_eq_sub_mod hlow]
    exact Nat.mod_eq_of_lt (by omega)
  have hbits :
      (BitVec.ofNat 11 (q + (1023 : Nat) + (52 : Nat)).toNat).toNat = (q + 1075).toNat := by
    rw [BitVec.toNat_ofNat]
    omega
  have hmax : BitVec.ofNat 11 (q + (1023 : Nat) + (52 : Nat)).toNat ≠ -1#11 := by
    intro h
    rw [h] at hbits
    simp at hbits
    omega
  have hzero : BitVec.ofNat 11 (q + (1023 : Nat) + (52 : Nat)).toNat ≠ 0#11 := by
    intro h
    rw [h] at hbits
    simp at hbits
    omega
  have hsum := toNat_hidden (BitVec.ofNat 52 m)
  rw [pack, exponentBias_eq, mantissaBits_eq, if_neg (by simp; omega), if_pos (by omega), unpack]
  simp only [unpackMantissa_packComponents, unpackExponent_packComponents,
    unpackSign_packComponents, ofBitVec_toBitVec]
  rw [if_neg hmax, if_neg hzero]
  simp only [hbits, exponentBias_eq]
  rw [UnpackedFloat.finite.injEq]
  refine ⟨rfl, by omega, by omega⟩

theorem unpack_pack_subnormal (sign : Sign) {m : Nat} {q : Int} (hpos : 0 < m)
    (hhigh : m < hiddenBit) (hq : -1074 ≤ q) (hq' : q ≤ 971) :
    unpack .binary64 (pack .binary64 (.finite sign m q hpos)) = .finite sign m (-1074) hpos := by
  have hlog : m.log2 < 52 := (Nat.log2_lt (by omega)).mpr hhigh
  have hmantissa : (BitVec.ofNat 52 m).toNat = m := by
    rw [BitVec.toNat_ofNat]
    exact Nat.mod_eq_of_lt hhigh
  have hne : BitVec.ofNat 52 m ≠ 0#52 := by
    intro h
    rw [h] at hmantissa
    exact absurd hmantissa.symm (Nat.ne_of_gt hpos)
  rw [pack, exponentBias_eq, mantissaBits_eq, if_neg (by simp; omega), if_neg (by omega), unpack]
  simp only [unpackMantissa_packComponents, unpackExponent_packComponents,
    unpackSign_packComponents, ofBitVec_toBitVec]
  rw [if_neg (by decide), if_pos trivial, dif_neg hne]
  simp only [hmantissa, exponentBias_eq]
  rfl

/-! ### Negatives -/

theorem isRepresentable_neg {u : UnpackedFloat} (h : IsRepresentable u) :
    IsRepresentable u.neg := by
  cases u <;> exact h

/-- Packing loses nothing of a number that is representable. -/
theorem unpack_pack {u : UnpackedFloat} (h : IsRepresentable u) :
    unpack .binary64 (pack .binary64 u) = u := by
  cases u with
  | notANumber => rfl
  | infinity sign => exact unpack_packedInfinity sign
  | zero sign => cases sign <;> rfl
  | finite sign m q hpos =>
    obtain ⟨hform, hq⟩ := h
    rcases Nat.lt_or_ge m hiddenBit with hlow | hlow
    · obtain rfl : q = -1074 := hform.normal.resolve_left (Nat.not_le.mpr hlow)
      exact unpack_pack_subnormal sign hpos hlow (Int.le_refl _) hq
    · exact unpack_pack_normal sign hpos hlow hform.lt hform.le hq

/-- Negatives compare the other way round. -/
theorem compare_neg (u v : UnpackedFloat) : u.neg.compare v.neg = v.compare u := by
  have hswap (q q' : Int) (m m' : Nat) : ((compare q q').then (compare m m')).swap =
      (compare q' q).then (compare m' m) := by
    rw [Ordering.swap_then, ← Std.OrientedCmp.eq_swap, ← Std.OrientedCmp.eq_swap]
  -- Only two numbers of one sign are compared by anything but their signs.
  cases u with
  | notANumber => cases v <;> rfl
  | infinity s | zero s =>
    cases v with
    | notANumber => cases s <;> rfl
    | infinity s' | zero s' | finite s' => cases s <;> cases s' <;> rfl
  | finite s m q hpos =>
    cases v with
    | notANumber => cases s <;> rfl
    | infinity s' | zero s' => cases s <;> cases s' <;> rfl
    | finite s' m' q' hpos' =>
      cases s <;> cases s'
      case negative.negative => exact congrArg some (hswap q' q m' m).symm
      case negative.positive => rfl
      case positive.negative => rfl
      case positive.positive => exact congrArg some (hswap q q' m m')

theorem float_lt_iff (x y : Float) : x < y ↔ x.toModel.unpack.lt y.toModel.unpack = true := by
  show Float.lt x y = true ↔ _
  rw [Float.lt, decide_eq_true_iff]
  rfl

theorem neg_lt_neg_iff (a b : Float) : -a < -b ↔ b < a := by
  have hneg (x : Float) : (-x).toModel.unpack = x.toModel.unpack.neg :=
    unpack_pack (isRepresentable_neg (isRepresentable_unpack _))
  rw [float_lt_iff, float_lt_iff, hneg, hneg, UnpackedFloat.lt, UnpackedFloat.lt, compare_neg]

/-! ### Differences -/

theorem targetExponent_eq (e : Int) :
    Format.binary64.targetExponent e = max (e - 53) (-1074) := rfl

theorem mantissa_shiftRight (em : ExtendedMantissa) (n : Nat) :
    (em >>> n).mantissa = em.mantissa / 2 ^ n := by
  show (n.repeat ExtendedMantissa.shiftRightOne em).mantissa = _
  induction n with
  | zero => rw [Nat.pow_zero, Nat.div_one]; rfl
  | succ n ih =>
    show (n.repeat ExtendedMantissa.shiftRightOne em).mantissa / 2 = _
    rw [ih, Nat.div_div_eq_div_mul, Nat.pow_succ]

/-- Shifting out what does not fit leaves the leading digit of a number in place. -/
theorem shiftToTargetExponent_bounds {m : Nat} {q : Int} (hpos : 0 < m) (hq : -1074 ≤ q) :
    0 < (shiftToTargetExponent .binary64 m q .exact).1.mantissa ∧
      (shiftToTargetExponent .binary64 m q .exact).1.mantissa < 2 * hiddenBit ∧
      -1074 ≤ (shiftToTargetExponent .binary64 m q .exact).2 := by
  have hlow : 2 ^ m.log2 ≤ m := Nat.log2_self_le (Nat.ne_of_gt hpos)
  have hhigh : m < 2 ^ (m.log2 + 1) := Nat.lt_log2_self
  have hshift : (Format.binary64.targetExponent (totalExponent m q) - q).toNat = m.log2 - 52 := by
    rw [targetExponent_eq, totalExponent]
    omega
  rw [shiftToTargetExponent, shiftToExponent, hshift, mantissa_shiftRight]
  show 0 < m / 2 ^ (m.log2 - 52) ∧ m / 2 ^ (m.log2 - 52) < 2 * hiddenBit ∧ _
  refine ⟨?_, ?_, by simp only; omega⟩
  · refine Nat.div_pos (Nat.le_trans ?_ hlow) (Nat.two_pow_pos _)
    exact Nat.pow_le_pow_right (by decide) (Nat.sub_le _ _)
  · rw [Nat.div_lt_iff_lt_mul (Nat.two_pow_pos _)]
    calc m < 2 ^ (m.log2 + 1) := hhigh
      _ ≤ 2 ^ (53 + (m.log2 - 52)) := Nat.pow_le_pow_right (by decide) (by omega)
      _ = 2 * hiddenBit * 2 ^ (m.log2 - 52) := by rw [Nat.pow_add]; rfl

theorem le_roundToNearestEven (m : Nat) (accuracy : Accuracy) :
    m ≤ accuracy.roundToNearestEven m := by
  rcases accuracy with _ | (_ | _ | _)
  · exact Nat.le_refl m
  · exact Nat.le_refl m
  · exact Nat.le_add_right m _
  · exact Nat.le_succ m

/-- Rounding keeps the sign of a number and never takes it to zero. -/
theorem exists_round_eq (sign : Sign) {m : Nat} {q : Int} (hpos : 0 < m) (hq : -1074 ≤ q) :
    ∃ m' q' hpos', UnpackedFloat.round .binary64 sign m q = .finite sign m' q' hpos' ∧
      m' < 2 * hiddenBit ∧ -1074 ≤ q' := by
  obtain ⟨e, he⟩ : ∃ e, e = Format.binary64.targetExponent (totalExponent m q) := ⟨_, rfl⟩
  have hle : -1074 ≤ e := he ▸ Int.le_max_right _ _
  have hscaled : 0 < m <<< (q - e).toNat := by
    rw [Nat.shiftLeft_eq]
    exact Nat.mul_pos hpos (Nat.two_pow_pos _)
  obtain ⟨hfirst, -, hexponent⟩ :=
    shiftToTargetExponent_bounds (q := q - (q - e).toNat) hscaled (by omega)
  -- Rounding up may need another digit, so that the number is shifted once more.
  obtain ⟨hlast, hlt, hexponent⟩ := shiftToTargetExponent_bounds
    (Nat.lt_of_lt_of_le hfirst (le_roundToNearestEven _ (ExtendedMantissa.accuracy _))) hexponent
  rw [UnpackedFloat.round, ← he]
  exact ⟨_, _, hlast, dif_neg (Nat.ne_of_gt hlast), hlt, hexponent⟩

/-- Below zero. -/
def IsNegative : UnpackedFloat → Prop
  | .infinity .negative => True
  | .finite .negative .. => True
  | _ => False

theorem lt_zero_iff (u : UnpackedFloat) : u.lt (.zero .positive) = true ↔ IsNegative u := by
  rcases u with (_ | _) | _ | _ | (_ | _)
  · exact ⟨fun _ ↦ trivial, fun _ ↦ rfl⟩
  · exact ⟨nofun, nofun⟩
  · exact ⟨nofun, nofun⟩
  · exact ⟨nofun, nofun⟩
  · exact ⟨fun _ ↦ trivial, fun _ ↦ rfl⟩
  · exact ⟨nofun, nofun⟩

/-- Packing may lose digits, and what is too large becomes infinite, but the sign stays. -/
theorem isNegative_unpack_pack (sign : Sign) {m : Nat} {q : Int} (hpos : 0 < m)
    (hlt : m < 2 * hiddenBit) (hq : -1074 ≤ q) :
    IsNegative (unpack .binary64 (pack .binary64 (.finite sign m q hpos))) ↔ sign = .negative := by
  have hsign {u : UnpackedFloat}
      (hu : u = .infinity sign ∨ ∃ q', u = .finite sign m q' hpos) :
      IsNegative u ↔ sign = .negative := by
    rcases hu with rfl | ⟨q', rfl⟩ <;> cases sign
    · exact ⟨fun _ ↦ rfl, fun _ ↦ trivial⟩
    · exact ⟨nofun, nofun⟩
    · exact ⟨fun _ ↦ rfl, fun _ ↦ trivial⟩
    · exact ⟨nofun, nofun⟩
  apply hsign
  rcases Int.lt_or_le 971 q with hlarge | hq'
  · rw [pack, exponentBias_eq, if_pos (by simp; omega)]
    exact .inl (unpack_packedInfinity sign)
  rcases Nat.lt_or_ge m hiddenBit with hlow | hlow
  · exact .inr ⟨-1074, unpack_pack_subnormal sign hpos hlow hq hq'⟩
  · exact .inr ⟨q, unpack_pack_normal sign hpos hlow hlt hq hq'⟩

/-- A number that is rounded is below zero exactly if it was before. -/
theorem isNegative_normalize (m : Int) {q : Int} (hq : -1074 ≤ q) :
    IsNegative (unpack .binary64
      (pack .binary64 (UnpackedFloat.normalize .binary64 m q .positive))) ↔ m < 0 := by
  rw [UnpackedFloat.normalize]
  split
  · rename_i h
    have h : m < 0 := Int.compare_eq_lt.mp h
    obtain ⟨m', q', hpos, heq, hlt, hq'⟩ :=
      exists_round_eq .negative (m := (-m).toNat) (by omega) hq
    rw [heq, isNegative_unpack_pack _ hpos hlt hq']
    simp [h]
  · rename_i h
    have h : m = 0 := Int.compare_eq_eq.mp h
    exact ⟨nofun, fun hlt ↦ absurd h (Int.ne_of_lt hlt)⟩
  · rename_i h
    have h : 0 < m := Int.compare_eq_gt.mp h
    obtain ⟨m', q', hpos, heq, hlt, hq'⟩ := exists_round_eq .positive (m := m.toNat) (by omega) hq
    rw [heq, isNegative_unpack_pack _ hpos hlt hq']
    exact ⟨nofun, fun hlt ↦ absurd h (Int.not_lt.mpr (Int.le_of_lt hlt))⟩

/-- Forms are compared by their exponents first, which is the order of the numbers. -/
theorem compare_forms {m m' : Nat} {q q' : Int} (h : IsForm m q) (h' : IsForm m' q') :
    (compare q q').then (compare m m') =
      compare (m <<< (q - min q q').toNat) (m' <<< (q' - min q q').toNat) := by
  -- The number with the larger exponent is normal, and it has a digit more at the lesser one.
  have hless {m m' : Nat} {q q' : Int} (h : IsForm m q) (h' : IsForm m' q') (hlt : q < q') :
      m <<< (q - min q q').toNat < m' <<< (q' - min q q').toNat := by
    have hzero : (q - min q q').toNat = 0 := by omega
    have hpos : 1 ≤ (q' - min q q').toNat := by omega
    have hnormal : hiddenBit ≤ m' := h'.normal.resolve_right (by have := h.le; omega)
    rw [hzero, Nat.shiftLeft_zero, Nat.shiftLeft_eq]
    calc m < 2 * hiddenBit := h.lt
      _ ≤ 2 ^ (q' - min q q').toNat * m' :=
        Nat.mul_le_mul (Nat.pow_le_pow_right Nat.two_pos hpos) hnormal
      _ = m' * 2 ^ (q' - min q q').toNat := Nat.mul_comm _ _
  rcases Int.lt_trichotomy q q' with hlt | rfl | hgt
  · rw [Int.compare_eq_lt.mpr hlt, Nat.compare_eq_lt.mpr (hless h h' hlt)]
    rfl
  · simp
  · have hgt' := hless h' h hgt
    rw [Int.min_comm] at hgt'
    rw [Int.compare_eq_gt.mpr hgt, Nat.compare_eq_gt.mpr hgt']
    rfl

theorem compare_signed {sign sign' : Sign} {m m' : Nat} {q q' : Int} (h : IsForm m q)
    (h' : IsForm m' q') :
    (UnpackedFloat.finite sign m q h.pos).compare (.finite sign' m' q' h'.pos) = some .lt ↔
      sign.apply (m <<< (q - min q q').toNat : Nat) -
        sign'.apply (m' <<< (q' - min q q').toNat : Nat) < 0 := by
  have hforms := compare_forms h h'
  have hpos (k : Nat) : 0 < m <<< k := shiftLeft_pos h.pos k
  have hpos' (k : Nat) : 0 < m' <<< k := shiftLeft_pos h'.pos k
  generalize (q - min q q').toNat = k at hforms ⊢
  generalize (q' - min q q').toNat = k' at hforms ⊢
  have := hpos k
  have := hpos' k'
  cases sign <;> cases sign' <;>
    simp only [UnpackedFloat.compare, Sign.apply, hforms, Option.some.injEq]
  · rw [← Std.OrientedCmp.eq_swap, Nat.compare_eq_lt]
    omega
  · exact ⟨fun _ ↦ by omega, fun _ ↦ trivial⟩
  · exact ⟨nofun, fun _ ↦ by omega⟩
  · rw [Nat.compare_eq_lt]
    omega

/-- A difference is below zero exactly if the first number is below the second. -/
theorem isNegative_sub {u v : UnpackedFloat} (hu : IsRepresentable u) (hv : IsRepresentable v) :
    IsNegative (unpack .binary64 (pack .binary64 (sub .binary64 u v))) ↔ u.lt v = true := by
  have hexact (hw : IsRepresentable (sub .binary64 u v))
      (hlt : (sub .binary64 u v).lt (.zero .positive) = u.lt v) :
      IsNegative (unpack .binary64 (pack .binary64 (sub .binary64 u v))) ↔ u.lt v = true := by
    rw [unpack_pack hw, ← lt_zero_iff, hlt]
  -- Only where both numbers have digits is anything rounded.
  cases u with
  | notANumber => exact hexact trivial rfl
  | infinity s =>
    cases v with
    | notANumber => exact hexact trivial rfl
    | infinity s' => cases s <;> cases s' <;> exact hexact trivial rfl
    | zero s' => cases s <;> exact hexact trivial rfl
    | finite s' => cases s <;> exact hexact trivial rfl
  | zero s =>
    cases v with
    | notANumber => exact hexact trivial rfl
    | infinity s' => cases s' <;> exact hexact trivial rfl
    | zero s' => cases s <;> cases s' <;> exact hexact trivial rfl
    | finite s' => cases s' <;> exact hexact hv rfl
  | finite s m q hpos =>
    cases v with
    | notANumber => exact hexact trivial rfl
    | infinity s' => cases s' <;> exact hexact trivial rfl
    | zero s' => cases s <;> exact hexact hu rfl
    | finite s' m' q' hpos' =>
      have hleast : -1074 ≤ min q q' := by
        have := hu.1.le
        have := hv.1.le
        omega
      rw [UnpackedFloat.lt, beq_iff_eq, compare_signed hu.1 hv.1]
      exact isNegative_normalize _ hleast

/-- Floats are so close to each other near zero that their differences are not rounded to zero. -/
theorem sub_neg_iff (a b : Float) : a - b < 0.0 ↔ a < b := by
  rw [float_lt_iff, float_lt_iff]
  exact (lt_zero_iff _).trans (isNegative_sub (isRepresentable_unpack _) (isRepresentable_unpack _))

end OutlierScoring.Binary64

namespace OutlierScoring

instance : LawfulOrder Float where
  sub_neg_iff := Binary64.sub_neg_iff
  neg_lt_neg_iff := Binary64.neg_lt_neg_iff

end OutlierScoring
