import OutlierScoring.Proofs.Number.Digits

/-!
# Operations on unpacked floats

Sums, differences, products and quotients of finite floats are the exact ones, rounded
(`rounds_add`, `rounds_sub`, `rounds_mul`, `rounds_div`). Zeros have no digits and are cases of
their own. Otherwise each operation leads back to rounding in digits, for which it has to have
digits enough: sums are given more of them, a product has them unless it is too small for them, and
a quotient is computed with as many as are needed.

Finite floats are compared as the numbers that they stand for (`lt_iff_valueOf`), and of two of them
one is not above the other (`le_iff_not_lt`). About infinities no more is said than on which side of
zero they are (`IsOn`), which sums and quotients respect.
-/

namespace OutlierScoring.Binary64

open Float.Model.UnpackedFloat
open Float.Model (Format UnpackedFloat totalExponent)

/-! ### Sums and differences -/

theorem represents_exact (m : ℕ) (q : ℤ) :
    Represents (.ofMantissaAndAccuracy m .exact) q (m * 2 ^ q) where
  le := le_rfl
  lt := by
    show (m * 2 ^ q : ℝ) < (m + 1) * 2 ^ q
    gcongr
    exact lt_add_one _
  exact_iff := ⟨fun _ ↦ rfl, fun _ ↦ ⟨rfl, rfl⟩⟩

theorem shiftLeft_value (m k : ℕ) (q : ℤ) : ((m <<< k : ℕ) * 2 ^ (q - k) : ℝ) = m * 2 ^ q := by
  rw [Nat.shiftLeft_eq, zpow_sub₀ two_ne_zero]
  push_cast
  rw [zpow_natCast]
  field_simp

/-- Digits are added where there are fewer than there is room for. -/
theorem roundsOn_round (sign : Sign) {m : ℕ} (hm : 0 < m) (q : ℤ) :
    RoundsOn sign (m * 2 ^ q) (UnpackedFloat.round .binary64 sign m q) := by
  obtain ⟨k, hk⟩ : ∃ k, k = (q - Format.binary64.targetExponent (totalExponent m q)).toNat :=
    ⟨_, rfl⟩
  have hdigits : q - k ≤ -1074 ∨ hiddenBit ≤ m <<< k := by
    rw [targetExponent_eq, totalExponent] at hk
    rcases Int.lt_or_le (-1074) (q - k) with hlarge | hleast
    · right
      have hlow : 2 ^ m.log2 ≤ m := Nat.log2_self_le (Nat.ne_of_gt hm)
      rw [Nat.shiftLeft_eq]
      calc hiddenBit = 2 ^ 52 := rfl
        _ ≤ 2 ^ (m.log2 + k) := Nat.pow_le_pow_right two_pos (by omega)
        _ = 2 ^ m.log2 * 2 ^ k := Nat.pow_add ..
        _ ≤ m * 2 ^ k := Nat.mul_le_mul_right _ hlow
    · exact .inl hleast
  have hround := roundsOn_roundWithAccuracy sign (represents_exact (m <<< k) (q - k)) hdigits
  rw [shiftLeft_value] at hround
  rw [UnpackedFloat.round, decreaseExponent, ← hk]
  exact hround

theorem apply_eq_signed (sign : Sign) (n : ℤ) : ((sign.apply n : ℤ) : ℝ) = signed sign n := by
  cases sign
  · exact Int.cast_neg n
  · rfl

theorem rounds_zero (sign : Sign) : Rounds 0 (.zero sign) :=
  rounds_self (u := .zero sign) rfl trivial

theorem rounds_normalize (m q : ℤ) (sign : Sign) :
    Rounds (m * 2 ^ q) (UnpackedFloat.normalize .binary64 m q sign) := by
  rw [UnpackedFloat.normalize]
  split
  · rename_i h
    have h : m < 0 := Int.compare_eq_lt.mp h
    have hround := (roundsOn_round .negative (m := (-m).toNat) (by omega) q).rounds
    have hcast : (((-m).toNat : ℕ) : ℝ) = -m := by
      rw [← Int.cast_natCast, Int.toNat_of_nonneg (by omega)]
      push_cast
      rfl
    rw [hcast] at hround
    convert hround using 1
    show (m * 2 ^ q : ℝ) = -(-m * 2 ^ q)
    ring
  · rename_i h
    rw [Int.compare_eq_eq.mp h, Int.cast_zero, zero_mul]
    exact rounds_zero sign
  · rename_i h
    have h : 0 < m := Int.compare_eq_gt.mp h
    have hround := (roundsOn_round .positive (m := m.toNat) (by omega) q).rounds
    have hcast : ((m.toNat : ℕ) : ℝ) = m := by
      rw [← Int.cast_natCast, Int.toNat_of_nonneg (by omega)]
    rw [hcast] at hround
    exact hround

/-- A magnitude as a multiple of a lesser power of two. -/
theorem apply_shiftLeft (sign : Sign) (m : ℕ) {q least : ℤ} (h : least ≤ q) :
    ((sign.apply ((m <<< (q - least).toNat : ℕ) : ℤ) : ℤ) : ℝ) * 2 ^ least =
      signed sign (m * 2 ^ q) := by
  have hvalue := shiftLeft_value m (q - least).toNat q
  rw [Int.toNat_of_nonneg (by omega), sub_sub_cancel] at hvalue
  rw [apply_eq_signed, ← hvalue]
  cases sign
  · exact neg_mul ..
  · rfl

theorem rounds_add {u v : UnpackedFloat} (hu : u.isFinite = true) (hv : v.isFinite = true)
    (hu' : IsRepresentable u) (hv' : IsRepresentable v) :
    Rounds (valueOf u + valueOf v) (UnpackedFloat.add .binary64 u v) := by
  cases u with
  | notANumber | infinity => exact absurd hu nofun
  | zero s =>
    cases v with
    | notANumber | infinity => exact absurd hv nofun
    | zero s' =>
      have hzero : Rounds (0 + 0) (.zero (if s == s' then s else .positive)) :=
        (add_zero (0 : ℝ)).symm ▸ rounds_zero _
      cases s <;> cases s' <;> exact hzero
    | finite s' m' q' hpos' =>
      rw [show valueOf (.zero s) = 0 from rfl, zero_add]
      exact rounds_self rfl hv'
  | finite s m q hpos =>
    cases v with
    | notANumber | infinity => exact absurd hv nofun
    | zero s' =>
      rw [show valueOf (.zero s') = 0 from rfl, add_zero]
      exact rounds_self rfl hu'
    | finite s' m' q' hpos' =>
      have hround := rounds_normalize (s.apply ((m <<< (q - min q q').toNat : ℕ) : ℤ) +
        s'.apply ((m' <<< (q' - min q q').toNat : ℕ) : ℤ)) (min q q') .positive
      rw [Int.cast_add, add_mul, apply_shiftLeft s m (min_le_left q q'),
        apply_shiftLeft s' m' (min_le_right q q')] at hround
      exact hround

/-- A difference is the sum with the negative, which has the same digits. -/
theorem sub_eq_add (u v : UnpackedFloat) :
    UnpackedFloat.sub .binary64 u v = UnpackedFloat.add .binary64 u v.neg := by
  cases u with
  | notANumber => rfl
  | infinity s | zero s => cases v <;> rfl
  | finite s m q hpos =>
    cases v with
    | notANumber | infinity | zero => rfl
    | finite s' m' q' hpos' =>
      have hneg (n : ℤ) : (-s').apply n = -s'.apply n := by
        cases s'
        · exact (Int.neg_neg n).symm
        · rfl
      show UnpackedFloat.normalize .binary64 (s.apply _ - s'.apply _) _ .positive =
        UnpackedFloat.normalize .binary64 (s.apply _ + (-s').apply _) _ .positive
      rw [hneg, sub_eq_add_neg]

theorem rounds_sub {u v : UnpackedFloat} (hu : u.isFinite = true) (hv : v.isFinite = true)
    (hu' : IsRepresentable u) (hv' : IsRepresentable v) :
    Rounds (valueOf u - valueOf v) (UnpackedFloat.sub .binary64 u v) := by
  rw [sub_eq_add, sub_eq_add_neg, ← valueOf_neg]
  exact rounds_add hu (isFinite_neg hv) hu' (isRepresentable_neg hv')

/-! ### Products -/

theorem signed_mul (sign sign' : Sign) (r r' : ℝ) :
    signed (sign * sign') (r * r') = signed sign r * signed sign' r' := by
  cases sign <;> cases sign'
  · exact (neg_mul_neg r r').symm
  · exact (neg_mul r r').symm
  · exact (mul_neg r r').symm
  · rfl

theorem signed_div (sign sign' : Sign) (r r' : ℝ) :
    signed (sign / sign') (r / r') = signed sign r / signed sign' r' := by
  cases sign <;> cases sign'
  · exact (neg_div_neg_eq r r').symm
  · exact (neg_div r' r).symm
  · exact (div_neg r).symm
  · rfl

/-- A product of two numbers with digits enough, or of two that are small enough. -/
theorem rounds_product (sign : Sign) {m m' : ℕ} {q q' : ℤ}
    (h : q + q' ≤ -1074 ∨ hiddenBit ≤ m * m') :
    Rounds (signed sign (m * 2 ^ q * (m' * 2 ^ q')))
      (roundWithAccuracy .binary64 sign (m * m') (q + q') .exact) := by
  have hround := (roundsOn_roundWithAccuracy sign (represents_exact (m * m') (q + q')) h).rounds
  rw [zpow_add₀ two_ne_zero, Nat.cast_mul] at hround
  convert hround using 2
  ring

theorem rounds_mul {u v : UnpackedFloat} (hu : u.isFinite = true) (hv : v.isFinite = true)
    (hu' : IsRepresentable u) (hv' : IsRepresentable v) :
    Rounds (valueOf u * valueOf v) (UnpackedFloat.mul .binary64 u v) := by
  cases u with
  | notANumber | infinity => exact absurd hu nofun
  | zero s =>
    rw [show valueOf (.zero s) = 0 from rfl, zero_mul]
    cases v with
    | notANumber | infinity => exact absurd hv nofun
    | zero s' | finite s' => exact rounds_zero (s * s')
  | finite s m q hpos =>
    cases v with
    | notANumber | infinity => exact absurd hv nofun
    | zero s' =>
      rw [show valueOf (.zero s') = 0 from rfl, mul_zero]
      exact rounds_zero (s * s')
    | finite s' m' q' hpos' =>
      have hdigits : q + q' ≤ -1074 ∨ hiddenBit ≤ m * m' := by
        rcases hu'.1.normal with hm | hq
        · exact .inr (hm.trans (Nat.le_mul_of_pos_right m hpos'))
        · rcases hv'.1.normal with hm' | hq'
          · exact .inr (hm'.trans (Nat.le_mul_of_pos_left m' hpos))
          · exact .inl (by omega)
      have hround := rounds_product (s * s') hdigits
      rw [signed_mul] at hround
      exact hround

/-! ### Quotients -/

theorem represents_quotient {n d : ℕ} (hd : 0 < d) (e : ℤ) :
    Represents (.ofMantissaAndAccuracy (n / d) (accuracyOfFraction (n % d) d)) e
      (n / d * 2 ^ e : ℝ) := by
  have hd' : (0 : ℝ) < d := by exact_mod_cast hd
  have hpow : (0 : ℝ) < 2 ^ e := by positivity
  have hsplit : (n : ℝ) = d * (n / d : ℕ) + (n % d : ℕ) := by
    exact_mod_cast (Nat.div_add_mod n d).symm
  have hrest : ((n % d : ℕ) : ℝ) < d := by exact_mod_cast Nat.mod_lt n hd
  have hmantissa : (ExtendedMantissa.ofMantissaAndAccuracy (n / d)
      (accuracyOfFraction (n % d) d)).mantissa = n / d := by
    rcases accuracyOfFraction (n % d) d with _ | (_ | _ | _) <;> rfl
  have hquotient : (n / d : ℝ) = (n / d : ℕ) + (n % d : ℕ) / d := by
    rw [hsplit]
    field_simp
  constructor
  · rw [hmantissa, hquotient]
    gcongr
    exact le_add_of_nonneg_right (by positivity)
  · rw [hmantissa, hquotient]
    gcongr
    rwa [div_lt_one hd']
  · rw [hmantissa, hquotient, mul_left_inj' hpow.ne', add_eq_left, div_eq_zero_iff,
      or_iff_left hd'.ne', Nat.cast_eq_zero, accuracyOfFraction]
    split
    · rename_i h
      exact ⟨fun _ ↦ h, fun _ ↦ ⟨rfl, rfl⟩⟩
    · rename_i h
      refine ⟨fun hbits ↦ ?_, fun hzero ↦ absurd hzero h⟩
      obtain ⟨hround, hsticky⟩ := hbits
      generalize compare (2 * (n % d)) d = ordering at hround hsticky
      rcases ordering with _ | _ | _
      · cases hsticky
      · cases hround
      · cases hround

/-- A quotient is computed with as many digits as there is room for, unless it is too small to have
them. -/
theorem roundsOn_quotient (sign : Sign) {m m' : ℕ} (hpos : 0 < m) (hpos' : 0 < m') (q q' : ℤ) :
    RoundsOn sign (m * 2 ^ q / (m' * 2 ^ q'))
      (let (d, e, accuracy) := divCore .binary64 m q m' q'
      roundWithAccuracy .binary64 sign d e accuracy) := by
  obtain ⟨e, he⟩ : ∃ e, e = min (q - q')
      (Format.binary64.targetExponent (totalExponent m q - totalExponent m' q')) := ⟨_, rfl⟩
  obtain ⟨k, hk⟩ : ∃ k, k = (q - q' - e).toNat := ⟨_, rfl⟩
  have hdigits : e ≤ -1074 ∨ hiddenBit ≤ (m <<< k) / m' := by
    rw [targetExponent_eq, totalExponent, totalExponent] at he
    rcases Int.lt_or_le (-1074) e with hlarge | hleast
    · right
      have hlow : 2 ^ m.log2 ≤ m := Nat.log2_self_le (Nat.ne_of_gt hpos)
      have hhigh : m' < 2 ^ (m'.log2 + 1) := Nat.lt_log2_self
      rw [Nat.le_div_iff_mul_le hpos', Nat.shiftLeft_eq]
      calc hiddenBit * m' ≤ 2 ^ 52 * 2 ^ (m'.log2 + 1) := Nat.mul_le_mul le_rfl hhigh.le
        _ = 2 ^ (52 + (m'.log2 + 1)) := (Nat.pow_add ..).symm
        _ ≤ 2 ^ (m.log2 + k) := Nat.pow_le_pow_right two_pos (by omega)
        _ = 2 ^ m.log2 * 2 ^ k := Nat.pow_add ..
        _ ≤ m * 2 ^ k := Nat.mul_le_mul_right _ hlow
    · exact .inl hleast
  have hround :=
    roundsOn_roundWithAccuracy sign (represents_quotient (n := m <<< k) hpos' e) hdigits
  have hvalue : ((m <<< k : ℕ) / m' * 2 ^ e : ℝ) = m * 2 ^ q / (m' * 2 ^ q') := by
    have hshift := shiftLeft_value m k q
    rw [← hshift, div_mul_eq_mul_div, show q - k = e + q' by omega, zpow_add₀ two_ne_zero]
    field_simp
  rw [hvalue] at hround
  rw [divCore, ← he, ← hk]
  exact hround

theorem rounds_div {u v : UnpackedFloat} (hu : u.isFinite = true) (hv : v.isFinite = true)
    (hne : valueOf v ≠ 0) : Rounds (valueOf u / valueOf v) (UnpackedFloat.div .binary64 u v) := by
  cases v with
  | notANumber | infinity => exact absurd hv nofun
  | zero s' => exact absurd rfl hne
  | finite s' m' q' hpos' =>
    cases u with
    | notANumber | infinity => exact absurd hu nofun
    | zero s =>
      rw [show valueOf (.zero s) = 0 from rfl, zero_div]
      exact rounds_zero (s / s')
    | finite s m q hpos =>
      have hround := (roundsOn_quotient (s / s') hpos hpos' q q').rounds
      rw [signed_div] at hround
      exact hround

/-! ### Order -/

/-- Finite floats are compared as the numbers that they stand for. -/
theorem lt_iff_valueOf {u v : UnpackedFloat} (hu : u.isFinite = true) (hv : v.isFinite = true)
    (hu' : IsRepresentable u) (hv' : IsRepresentable v) :
    u.lt v = true ↔ valueOf u < valueOf v := by
  have hpos (m : ℕ) (q : ℤ) (h : 0 < m) : (0 : ℝ) < m * 2 ^ q := by positivity
  cases u with
  | notANumber | infinity => exact absurd hu nofun
  | zero s =>
    cases v with
    | notANumber | infinity => exact absurd hv nofun
    | zero s' => exact ⟨nofun, fun h ↦ absurd h (lt_irrefl (0 : ℝ))⟩
    | finite s' m' q' hm' =>
      cases s'
      · exact ⟨nofun, fun h ↦ absurd (hpos m' q' hm') (not_lt.mpr (neg_pos.mp h).le)⟩
      · exact ⟨fun _ ↦ hpos m' q' hm', fun _ ↦ rfl⟩
  | finite s m q hm =>
    cases v with
    | notANumber | infinity => exact absurd hv nofun
    | zero s' =>
      cases s
      · exact ⟨fun _ ↦ neg_lt_zero.mpr (hpos m q hm), fun _ ↦ rfl⟩
      · exact ⟨nofun, fun h ↦ absurd (hpos m q hm) (not_lt.mpr (le_of_lt h))⟩
    | finite s' m' q' hm' =>
      have hpow : (0 : ℝ) < 2 ^ min q q' := by positivity
      rw [UnpackedFloat.lt, beq_iff_eq, compare_signed hu'.1 hv'.1, sub_neg, ← Int.cast_lt (R := ℝ),
        ← mul_lt_mul_iff_left₀ hpow, apply_shiftLeft s m (min_le_left q q'),
        apply_shiftLeft s' m' (min_le_right q q')]
      rfl

/-- Comparing the other way round turns the outcome around. -/
theorem compare_swap (u v : UnpackedFloat) : (u.compare v).map Ordering.swap = v.compare u := by
  have hswap (q q' : ℤ) (m m' : ℕ) : ((compare q q').then (compare m m')).swap =
      (compare q' q).then (compare m' m) := by
    rw [Ordering.swap_then, ← Std.OrientedCmp.eq_swap, ← Std.OrientedCmp.eq_swap]
  cases u with
  | notANumber => cases v <;> rfl
  | infinity s | zero s =>
    cases v with
    | notANumber => cases s <;> rfl
    | infinity s' | zero s' | finite s' => cases s <;> cases s' <;> rfl
  | finite s m q hpos =>
    cases v with
    | notANumber => cases s <;> rfl
    | infinity s' | zero s' => cases s <;> cases s' <;> rfl
    | finite s' m' q' hpos' =>
      cases s <;> cases s'
      case negative.negative =>
        exact congrArg some (congrArg Ordering.swap (hswap q q' m m'))
      case negative.positive => rfl
      case positive.negative => rfl
      case positive.positive => exact congrArg some (hswap q q' m m')

theorem not_lt_of_le {u v : UnpackedFloat} (h : u.le v = true) : ¬v.lt u = true := by
  rw [UnpackedFloat.le] at h
  rw [UnpackedFloat.lt, beq_iff_eq, ← compare_swap u v]
  intro hlt
  rcases hcompare : u.compare v with _ | _ | _ | _
  · rw [hcompare] at h
    cases h
  · rw [hcompare] at hlt
    cases hlt
  · rw [hcompare] at hlt
    cases hlt
  · rw [hcompare] at h
    cases h

theorem exists_compare_eq {u v : UnpackedFloat} (hu : u.isFinite = true) (hv : v.isFinite = true) :
    ∃ order, u.compare v = some order := by
  cases u with
  | notANumber | infinity => exact absurd hu nofun
  | zero s =>
    cases v with
    | notANumber | infinity => exact absurd hv nofun
    | zero => exact ⟨.eq, rfl⟩
    | finite s' => cases s' <;> exact ⟨_, rfl⟩
  | finite s =>
    cases v with
    | notANumber | infinity => exact absurd hv nofun
    | zero => cases s <;> exact ⟨_, rfl⟩
    | finite s' => cases s <;> cases s' <;> exact ⟨_, rfl⟩

/-- Of two finite floats one is not above the other. -/
theorem le_iff_not_lt {u v : UnpackedFloat} (hu : u.isFinite = true) (hv : v.isFinite = true) :
    u.le v = true ↔ ¬v.lt u = true := by
  refine ⟨not_lt_of_le, fun h ↦ ?_⟩
  obtain ⟨order, hcompare⟩ := exists_compare_eq hu hv
  rw [UnpackedFloat.lt, beq_iff_eq, ← compare_swap u v, hcompare] at h
  rw [UnpackedFloat.le, hcompare]
  cases order with
  | lt | eq => rfl
  | gt => exact absurd rfl h

/-- What lies between finite floats is finite. -/
theorem isFinite_of_between {u v w : UnpackedFloat} (hu : u.isFinite = true)
    (hv : v.isFinite = true) (hlow : u.lt w = true) (hhigh : ¬v.lt w = true) :
    w.isFinite = true := by
  cases w with
  | zero | finite => rfl
  | notANumber => cases u <;> exact absurd hlow nofun
  | infinity s =>
    cases s
    · cases u with
      | notANumber | infinity => exact absurd hu nofun
      | zero | finite => exact absurd hlow nofun
    · cases v with
      | notANumber | infinity => exact absurd hv nofun
      | zero | finite => exact absurd rfl hhigh

/-! ### Signs -/

theorem zero_le_iff (u : UnpackedFloat) :
    (UnpackedFloat.zero .positive).le u = true ↔ IsOn .positive u := by
  rcases u with (_ | _) | _ | _ | (_ | _)
  · exact ⟨nofun, nofun⟩
  · exact ⟨fun _ ↦ rfl, fun _ ↦ rfl⟩
  · exact ⟨nofun, nofun⟩
  · exact ⟨fun _ ↦ trivial, fun _ ↦ rfl⟩
  · exact ⟨nofun, nofun⟩
  · exact ⟨fun _ ↦ rfl, fun _ ↦ rfl⟩

theorem le_zero_iff (u : UnpackedFloat) :
    u.le (.zero .positive) = true ↔ IsOn .negative u := by
  rcases u with (_ | _) | _ | _ | (_ | _)
  · exact ⟨fun _ ↦ rfl, fun _ ↦ rfl⟩
  · exact ⟨nofun, nofun⟩
  · exact ⟨nofun, nofun⟩
  · exact ⟨fun _ ↦ trivial, fun _ ↦ rfl⟩
  · exact ⟨fun _ ↦ rfl, fun _ ↦ rfl⟩
  · exact ⟨nofun, nofun⟩

theorem IsOn.neg {sign : Sign} {u : UnpackedFloat} (h : IsOn sign u) : IsOn (-sign) u.neg := by
  cases u with
  | notANumber => exact h
  | zero => trivial
  | infinity | finite => exact congrArg _ h

theorem isOn_pack {sign : Sign} {u : UnpackedFloat} (h : IsOn sign u) (hu : IsRepresentable u) :
    IsOn sign (unpack .binary64 (pack .binary64 u)) := by
  rw [unpack_pack hu]
  exact h

theorem normalize_of_pos {m : ℕ} (h : 0 < m) (q : ℤ) (sign : Sign) :
    UnpackedFloat.normalize .binary64 m q sign = UnpackedFloat.round .binary64 .positive m q := by
  rw [UnpackedFloat.normalize]
  split
  · rename_i hlt
    have := Int.compare_eq_lt.mp hlt
    omega
  · rename_i heq
    have := Int.compare_eq_eq.mp heq
    omega
  · rfl

/-- A sum of numbers above zero stays there. -/
theorem isOn_add {u v : UnpackedFloat} (hu : IsOn .positive u) (hv : IsOn .positive v)
    (hu' : IsRepresentable u) (hv' : IsRepresentable v) :
    IsOn .positive (unpack .binary64 (pack .binary64 (UnpackedFloat.add .binary64 u v))) := by
  cases u with
  | notANumber => exact absurd hu nofun
  | infinity s =>
    obtain rfl : s = .positive := hu
    cases v with
    | notANumber => exact absurd hv nofun
    | infinity s' =>
      obtain rfl : s' = .positive := hv
      exact isOn_pack (u := .infinity .positive) rfl trivial
    | zero | finite => exact isOn_pack (u := .infinity .positive) rfl trivial
  | zero s =>
    cases v with
    | notANumber => exact absurd hv nofun
    | zero s' =>
      cases s <;> cases s'
      · exact isOn_pack (u := .zero .negative) trivial trivial
      · exact isOn_pack (u := .zero .positive) trivial trivial
      · exact isOn_pack (u := .zero .positive) trivial trivial
      · exact isOn_pack (u := .zero .positive) trivial trivial
    | infinity | finite => exact isOn_pack hv hv'
  | finite s m q hpos =>
    obtain rfl : s = .positive := hu
    cases v with
    | notANumber => exact absurd hv nofun
    | infinity => exact isOn_pack hv hv'
    | zero => exact isOn_pack (u := .finite .positive m q hpos) rfl hu'
    | finite s' m' q' hpos' =>
      obtain rfl : s' = .positive := hv
      have hsum : 0 < m <<< (q - min q q').toNat + m' <<< (q' - min q q').toNat :=
        Nat.add_pos_left (shiftLeft_pos hpos _) _
      have hadd : UnpackedFloat.add .binary64 (.finite .positive m q hpos)
          (.finite .positive m' q' hpos') =
          UnpackedFloat.normalize .binary64
            (m <<< (q - min q q').toNat + m' <<< (q' - min q q').toNat : ℕ) (min q q')
            .positive := rfl
      rw [hadd, normalize_of_pos hsum]
      exact (roundsOn_round .positive hsum (min q q')).isOn

/-- A quotient by a number above zero stays on the side of zero on which it was. -/
theorem isOn_div {sign : Sign} {u v : UnpackedFloat} (hu : IsOn sign u)
    (hv : v.isFinite = true) (hpos : 0 < valueOf v) :
    IsOn sign (unpack .binary64 (pack .binary64 (UnpackedFloat.div .binary64 u v))) := by
  cases v with
  | notANumber | infinity => exact absurd hv nofun
  | zero s' => exact absurd rfl hpos.ne
  | finite s' m' q' hpos' =>
    obtain rfl : s' = .positive := by
      cases s'
      · have : (0 : ℝ) < m' * 2 ^ q' := by positivity
        exact absurd (neg_pos.mp hpos) (not_lt.mpr this.le)
      · rfl
    cases u with
    | notANumber => exact absurd hu nofun
    | infinity s =>
      obtain rfl : s = sign := hu
      cases s
      · exact isOn_pack (u := .infinity .negative) rfl trivial
      · exact isOn_pack (u := .infinity .positive) rfl trivial
    | zero s =>
      cases s
      · exact isOn_pack (u := .zero .negative) trivial trivial
      · exact isOn_pack (u := .zero .positive) trivial trivial
    | finite s m q hm =>
      obtain rfl : s = sign := hu
      cases s
      · exact (roundsOn_quotient .negative hm hpos' q q').isOn
      · exact (roundsOn_quotient .positive hm hpos' q q').isOn

end OutlierScoring.Binary64
