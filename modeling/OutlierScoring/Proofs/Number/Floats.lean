import OutlierScoring.Proofs.Number.Decimals
import OutlierScoring.Proofs.Number.Lawful
import OutlierScoring.Proofs.Number.Rounding

/-!
# Floats are read back from their shortest decimals

The shortest decimal of a float lies in the interval of the numbers that round to it, so it is
rounded to that float when it is read. With this, floats obey the law of `LawfulNumeral`.
-/

namespace OutlierScoring

/-- The number that the decimal stands for, its sign left aside. -/
def Decimal.size (d : Decimal) : ℚ := d.digits * 10 ^ d.exponent

namespace Decimal

theorem size_trim (d : Decimal) : d.trim.size = d.size := by
  rcases Nat.eq_zero_or_pos d.digits with hzero | hpos
  · simp [trim, size, hzero]
  · obtain ⟨k, rest, htrim, hdigits, -⟩ := d.trim_of_pos hpos
    rw [htrim, size, size, hdigits, zpow_add₀ (by norm_num), zpow_natCast]
    push_cast
    ring

theorem negative_trim (d : Decimal) : d.trim.negative = d.negative := by
  rcases Nat.eq_zero_or_pos d.digits with hzero | hpos
  · simp [trim, hzero]
  · obtain ⟨k, rest, htrim, -⟩ := d.trim_of_pos hpos
    rw [htrim]

theorem size_bounds {d : Decimal} (h : 0 < d.digits) :
    (10 : ℚ) ^ d.magnitude ≤ d.size ∧ d.size < 10 ^ (d.magnitude + 1) := by
  have hpower : (0 : ℚ) < 10 ^ d.exponent := by positivity
  have hwidth : 0 < width d.digits := Nat.length_toDigits_pos
  have hlow : 10 ^ (width d.digits - 1) ≤ d.digits := by
    rcases Nat.eq_zero_or_pos (width d.digits - 1) with hone | hmore
    · rw [hone]
      exact h
    · have hlong : ¬width d.digits ≤ width d.digits - 1 := by omega
      exact Nat.not_lt.mp (mt (Nat.length_toDigits_le_iff (by decide) hmore).mpr hlong)
  have hhigh : d.digits < 10 ^ width d.digits :=
    (Nat.length_toDigits_le_iff (by decide) hwidth).mp (Nat.le_refl _)
  have hlow' : (10 : ℚ) ^ (width d.digits - 1) ≤ d.digits := by exact_mod_cast hlow
  have hhigh' : (d.digits : ℚ) < 10 ^ width d.digits := by exact_mod_cast hhigh
  have hmagnitude : d.magnitude = (width d.digits - 1 : Nat) + d.exponent := by
    rw [magnitude]
    omega
  have hnext : d.magnitude + 1 = width d.digits + d.exponent := by
    rw [magnitude]
    omega
  rw [hnext, hmagnitude, zpow_add₀ (by norm_num), zpow_add₀ (by norm_num), zpow_natCast,
    zpow_natCast, size]
  exact ⟨by gcongr, by gcongr⟩

end Decimal

namespace Shortest

/-- A power with an integer for an exponent, as a fraction of powers with natural ones. -/
theorem zpow_eq_div {a : ℚ} (h : a ≠ 0) (k : Int) : a ^ k = a ^ k.toNat / a ^ (-k).toNat := by
  rw [← zpow_natCast, ← zpow_natCast, ← zpow_sub₀ h]
  congr 1
  omega

/-- Grid points and the bounds of an interval are compared over a common denominator. -/
theorem exists_denominator (scale k : Int) : ∃ c : ℚ, 0 < c ∧
    ((Nat.pow 10 (-k).toNat <<< scale.toNat : Nat) : ℚ) = 2 ^ scale * c ∧
    ((Nat.pow 10 k.toNat <<< (-scale).toNat : Nat) : ℚ) = 10 ^ k * c := by
  refine ⟨10 ^ (-k).toNat * 2 ^ (-scale).toNat, by positivity, ?_, ?_⟩
  · rw [zpow_eq_div two_ne_zero, Nat.pow_eq, Nat.shiftLeft_eq]
    push_cast
    field_simp
  · rw [zpow_eq_div (by norm_num), Nat.pow_eq, Nat.shiftLeft_eq]
    push_cast
    field_simp

/-- A grid point lies in an interval if it does so over the common denominator. -/
theorem Interval.contains_of_scaled {i : Interval} {k : Int} {m up unit : Nat} {c : ℚ} (hc : 0 < c)
    (hup : (up : ℚ) = 2 ^ i.scale * c) (hunit : (unit : ℚ) = 10 ^ k * c)
    (hm : (if i.closed = true then decide (i.low * up ≤ m * unit ∧ m * unit ≤ i.high * up)
      else decide (i.low * up < m * unit ∧ m * unit < i.high * up)) = true) :
    i.Contains (m * 10 ^ k) := by
  have hscale (a : Nat) : ((a * up : Nat) : ℚ) = a * 2 ^ i.scale * c := by
    push_cast
    rw [hup]
    ring
  have hgrid : ((m * unit : Nat) : ℚ) = m * 10 ^ k * c := by
    push_cast
    rw [hunit]
    ring
  rw [Contains]
  split
  · rename_i hclosed
    rw [if_pos hclosed, decide_eq_true_eq, ← Nat.cast_le (α := ℚ), ← Nat.cast_le (α := ℚ), hscale,
      hscale, hgrid, mul_le_mul_iff_left₀ hc, mul_le_mul_iff_left₀ hc] at hm
    exact hm
  · rename_i hopen
    rw [if_neg hopen, decide_eq_true_eq, ← Nat.cast_lt (α := ℚ), ← Nat.cast_lt (α := ℚ), hscale,
      hscale, hgrid, mul_lt_mul_iff_left₀ hc, mul_lt_mul_iff_left₀ hc] at hm
    exact hm

theorem Interval.contains_of_nearest? {i : Interval} {k : Int} {n : Nat}
    (h : i.nearest? k = some n) : i.Contains (n * 10 ^ k) := by
  obtain ⟨c, hc, hup, hunit⟩ := exists_denominator i.scale k
  rw [nearest?] at h
  simp only at h
  generalize Nat.pow 10 (-k).toNat <<< i.scale.toNat = up at h hup
  generalize Nat.pow 10 k.toNat <<< (-i.scale).toNat = unit at h hunit
  split at h
  · rename_i hbelow habove
    -- Where both neighbours lie inside, either of them may be the nearer one.
    have hn : n = i.middle * up / unit ∨ n = i.middle * up / unit + 1 := by
      obtain rfl := Option.some.inj h
      split
      · exact .inl rfl
      · split
        · exact .inr rfl
        · omega
    rcases hn with rfl | rfl
    · exact contains_of_scaled hc hup hunit hbelow
    · exact contains_of_scaled hc hup hunit habove
  · rename_i hbelow _
    obtain rfl := Option.some.inj h
    exact contains_of_scaled hc hup hunit hbelow
  · rename_i _ habove
    obtain rfl := Option.some.inj h
    exact contains_of_scaled hc hup hunit habove
  · exact absurd h nofun

theorem Interval.contains_of_search {i : Interval} {k e : Int} {fuel n : Nat}
    (h : i.search k fuel = some (n, e)) : i.Contains (n * 10 ^ e) := by
  induction fuel generalizing k with
  | zero => exact absurd h nofun
  | succ fuel ih =>
    rw [search] at h
    split at h
    · rename_i m hnearest
      obtain ⟨rfl, rfl⟩ := Prod.mk.injEq .. ▸ Option.some.inj h
      exact contains_of_nearest? hnearest
    · exact ih h

theorem exact_eq (m : Nat) (q : Int) : ((exact m q).1 : ℚ) * 10 ^ (exact m q).2 = m * 2 ^ q := by
  rw [exact]
  split
  · rename_i hq
    obtain ⟨j, rfl⟩ := Int.eq_ofNat_of_zero_le hq
    rw [Nat.shiftLeft_eq]
    simp
  · rename_i hq
    obtain ⟨j, rfl⟩ : ∃ j : Nat, q = -(j : Int) := ⟨q.natAbs, by omega⟩
    have hten : (10 : ℚ) ^ j = 5 ^ j * 2 ^ j := by
      rw [← mul_pow]
      norm_num
    simp only [neg_neg, Int.toNat_natCast, zpow_neg, zpow_natCast, hten, Nat.pow_eq]
    push_cast
    field_simp

theorem Interval.contains_self {m : Nat} (q : Int) (h : 0 < m) :
    (around m q).Contains (m * 2 ^ q) := by
  have hpower : (0 : ℚ) < 2 ^ (q - 2) := by positivity
  have hmiddle : (m : ℚ) * 2 ^ q = (4 * m : Nat) * 2 ^ (q - 2) := by
    rw [zpow_sub₀ two_ne_zero]
    push_cast
    ring
  have hlow : (around m q).low < 4 * m := by
    show (if m = Binary64.hiddenBit ∧ -1074 < q then 4 * m - 1 else 4 * m - 2) < 4 * m
    split <;> omega
  have hlow' : ((around m q).low : ℚ) * 2 ^ (q - 2) < (4 * m : Nat) * 2 ^ (q - 2) := by
    have : ((around m q).low : ℚ) < (4 * m : Nat) := by exact_mod_cast hlow
    gcongr
  have hhigh' : ((4 * m : Nat) : ℚ) * 2 ^ (q - 2) < (4 * m + 2 : Nat) * 2 ^ (q - 2) := by
    have : ((4 * m : Nat) : ℚ) < (4 * m + 2 : Nat) := by
      exact_mod_cast Nat.lt_add_of_pos_right two_pos
    gcongr
  rw [Contains, hmiddle]
  split
  · exact ⟨hlow'.le, hhigh'.le⟩
  · exact ⟨hlow', hhigh'⟩

end Shortest

namespace Binary64

/-- The parts of a float are in range. -/
theorem isForm_split {x : Float} (h : x.isFinite = true) (hx : (split x).1 ≠ 0) :
    IsForm (split x).1 (split x).2 ∧ (split x).2 ≤ 971 := by
  have hfraction : fraction x < hiddenBit := Nat.mod_lt _ (by decide)
  have hbiased : biased x < 2 ^ 11 := Nat.mod_lt _ (by decide)
  have hne := (isFinite_iff_biased x).mp h
  rw [split_eq] at hx ⊢
  split
  · rename_i hzero
    rw [if_pos hzero] at hx
    exact ⟨⟨Nat.pos_of_ne_zero hx, by simp only; omega, le_refl _, .inr rfl⟩, by simp⟩
  · refine ⟨⟨?_, ?_, ?_, .inl (Nat.le_add_right _ _)⟩, ?_⟩ <;> simp only <;> omega

theorem contains_decimal {x : Float} (hx : (split x).1 ≠ 0) :
    (Shortest.Interval.around (split x).1 (split x).2).Contains (Shortest.decimal x).size := by
  rw [Shortest.decimal]
  simp only
  rw [if_neg hx, Decimal.size_trim, Decimal.size]
  simp only
  rcases hsearch : (Shortest.Interval.around (split x).1 (split x).2).search
    (((split x).1.log2 + (split x).2) * 30103 / 100000 + 1) 20 with _ | ⟨n, e⟩
  · rw [Option.getD_none, Shortest.exact_eq]
    exact Shortest.Interval.contains_self _ (Nat.pos_of_ne_zero hx)
  · exact Shortest.Interval.contains_of_search hsearch

theorem negative_decimal (x : Float) : (Shortest.decimal x).negative = isNegative x := by
  rw [Shortest.decimal]
  simp only
  split
  · rfl
  · exact Decimal.negative_trim _

theorem two_zpow_lt : (2 : ℚ) ^ (1200 : Int) < 10 ^ (400 : Int) := by
  have hpower : (2 : ℚ) ^ (1200 : Int) = 8 ^ (400 : Nat) := by
    rw [show (1200 : Int) = 3 * (400 : Nat) by norm_num, zpow_mul, zpow_natCast]
    norm_num
  rw [hpower, show (400 : Int) = (400 : Nat) from rfl, zpow_natCast]
  exact pow_lt_pow_left₀ (by norm_num) (by norm_num) (by norm_num)

section Sizes

variable {m : Nat} {q : Int} {r : ℚ} (hform : IsForm m q)
  (h : (Shortest.Interval.around m q).Contains r)

include hform h

theorem lt_of_contains : 10 ^ (-400 : Int) < r := by
  obtain ⟨⟨hlow, -⟩, -⟩ := bounds_of_contains hform.pos h
  rw [le_div_iff₀ (by positivity)] at hlow
  have hm : (1 : ℚ) ≤ m := by exact_mod_cast hform.pos
  have hq := hform.le
  calc (10 : ℚ) ^ (-400 : Int) < 2 ^ (-1200 : Int) := by
        rw [zpow_neg, zpow_neg]
        exact inv_strictAnti₀ (by positivity) two_zpow_lt
    _ ≤ 2 ^ (-1 + q) := zpow_le_zpow_right₀ one_le_two (by omega)
    _ = 1 / 2 * 2 ^ q := by
        rw [zpow_add₀ two_ne_zero]
        norm_num
    _ ≤ (m - 1 / 2) * 2 ^ q := by
        gcongr
        linarith
    _ ≤ r := hlow

theorem gt_of_contains (hq : q ≤ 971) : r < 10 ^ (400 : Int) := by
  obtain ⟨⟨-, hhigh⟩, -⟩ := bounds_of_contains hform.pos h
  rw [div_le_iff₀ (by positivity)] at hhigh
  have hm : (m : ℚ) + 1 ≤ 2 * hiddenBit := by exact_mod_cast hform.lt
  rw [hiddenBit_eq] at hm
  calc r ≤ (m + 1 / 2) * 2 ^ q := hhigh
    _ ≤ 2 ^ (53 : Int) * 2 ^ q := by
        gcongr
        norm_num at hm ⊢
        linarith
    _ = 2 ^ (53 + q) := by rw [zpow_add₀ two_ne_zero]
    _ ≤ 2 ^ (1200 : Int) := zpow_le_zpow_right₀ one_le_two (by omega)
    _ < 10 ^ (400 : Int) := two_zpow_lt

end Sizes

/-- A number that rounds to a float is neither too large nor too small to be looked at. -/
theorem magnitude_bounds {m : Nat} {q : Int} (hform : IsForm m q) (hq : q ≤ 971) {d : Decimal}
    (h : (Shortest.Interval.around m q).Contains d.size) :
    0 < d.digits ∧ -400 ≤ d.magnitude ∧ d.magnitude ≤ 400 := by
  have hleast := lt_of_contains hform h
  have hmost := gt_of_contains hform h hq
  have hdigits : 0 < d.digits := by
    rcases Nat.eq_zero_or_pos d.digits with hzero | hpos
    · rw [Decimal.size, hzero, Nat.cast_zero, zero_mul] at hleast
      exact absurd hleast (by positivity : (0 : ℚ) ≤ 10 ^ (-400 : Int)).not_gt
    · exact hpos
  obtain ⟨hsize, hsize'⟩ := Decimal.size_bounds hdigits
  have hten : (1 : ℚ) < 10 := by norm_num
  have hfirst := (zpow_lt_zpow_iff_right₀ hten).mp (hleast.trans hsize')
  have hlast := (zpow_lt_zpow_iff_right₀ hten).mp (hsize.trans_lt hmost)
  exact ⟨hdigits, by omega, by omega⟩

/-- A decimal is read as the float in whose interval it lies. -/
theorem ofDecimal_eq {x : Float} (h : x.isFinite = true) (hx : (split x).1 ≠ 0) {d : Decimal}
    (hnegative : d.negative = isNegative x)
    (hd : (Shortest.Interval.around (split x).1 (split x).2).Contains d.size) :
    ofDecimal d = x := by
  obtain ⟨hform, hq⟩ := isForm_split h hx
  obtain ⟨hdigits, hlow, hhigh⟩ := magnitude_bounds hform hq hd
  have hunit : 0 < Nat.pow 10 (-d.exponent).toNat := Nat.pow_pos (by decide)
  have hfraction :
      ((d.digits * Nat.pow 10 d.exponent.toNat : Nat) : ℚ) /
        (Nat.pow 10 (-d.exponent).toNat : Nat) = d.size := by
    rw [Decimal.size, Shortest.zpow_eq_div (by norm_num) d.exponent, Nat.pow_eq, Nat.pow_eq]
    push_cast
    rw [mul_div_assoc]
  rw [ofDecimal, if_neg (by omega), if_neg (by omega),
    roundFraction_eq hform hunit (by rwa [hfraction]) d.negative, hnegative]
  exact assemble_split h

/-- A finite float is read back from every decimal that differs from its shortest one in trailing
zeros only. -/
theorem ofDecimal_of_trim_eq {x : Float} (h : x.isFinite = true) {d : Decimal}
    (hd : d.trim = (Shortest.decimal x).trim) : ofDecimal d = x := by
  have hnegative : d.negative = isNegative x := by
    rw [← Decimal.negative_trim, hd, Decimal.negative_trim, negative_decimal]
  -- Zeros have no interval of their own: they are read from their sign alone.
  by_cases hx : (split x).1 = 0
  · have hdecimal : (Shortest.decimal x).trim = ⟨isNegative x, 0, 0⟩ := by
      rw [Shortest.decimal]
      simp only
      rw [if_pos hx]
      rfl
    have hdigits : d.digits = 0 := by
      by_contra hne
      obtain ⟨k, rest, htrim, -, hrest⟩ := d.trim_of_pos (Nat.pos_of_ne_zero hne)
      rw [hd, hdecimal, Decimal.mk.injEq] at htrim
      exact hrest (by rw [← htrim.2.1])
    have hzero : assemble (isNegative x) 0 0 = assemble (isNegative x) 0 (split x).2 := by
      rw [assemble_of_ne _ _ (by decide), assemble_of_ne _ _ (by decide)]
      rfl
    rw [ofDecimal, if_pos (.inl hdigits), hnegative, hzero, ← hx]
    exact assemble_split h
  · refine ofDecimal_eq h hx hnegative ?_
    rw [← Decimal.size_trim, hd, Decimal.size_trim]
    exact contains_decimal hx

theorem view_eq (x : Float) : Numeral.view x =
    if x.isFinite then .finite (Shortest.decimal x)
    else if x.isNaN then .nan
    else .infinite (isNegative x) := by
  show (if x.isNaN then _ else if x.isInf then _ else _) = _
  have hnan : x.isNaN = x.toModel.unpack.isNaN := rfl
  have hinf : x.isInf = x.toModel.unpack.isInf := rfl
  have hfinite : x.isFinite = x.toModel.unpack.isFinite := rfl
  rw [hnan, hinf, hfinite]
  cases x.toModel.unpack <;> rfl

/-- What is no finite number is read back from its text form as well. -/
theorem ofView_of_not_isFinite {x : Float} (h : x.isFinite = false) :
    Numeral.ofView (Numeral.view x) = x := by
  have hfinite : x.toModel.unpack.isFinite = false := h
  rcases hunpack : x.toModel.unpack with sign | _ | _ | _
  · rcases sign with _ | _
    · rw [eq_of_unpack_eq (y := -1.0 / 0.0) (hunpack.trans (by rfl))]
      decide +kernel
    · rw [eq_of_unpack_eq (y := 1.0 / 0.0) (hunpack.trans (by rfl))]
      decide +kernel
  · rw [eq_of_unpack_eq (y := 0.0 / 0.0) (hunpack.trans (by rfl))]
    decide +kernel
  · rw [hunpack] at hfinite
    cases hfinite
  · rw [hunpack] at hfinite
    cases hfinite

end Binary64

/-- Every finite float is read back from its text. -/
instance : LawfulNumeral Float where
  isFinite_iff x := by
    show x.isFinite = true ↔ _
    rw [Binary64.view_eq]
    split
    · rename_i hfinite
      exact ⟨fun _ ↦ ⟨_, rfl⟩, fun _ ↦ hfinite⟩
    · rename_i hfinite
      refine ⟨fun h ↦ absurd h hfinite, ?_⟩
      rintro ⟨d, hd⟩
      split at hd <;> exact absurd hd nofun
  ofDecimal_trim x d h := by
    rw [Binary64.view_eq] at h
    split at h
    · rename_i hfinite
      obtain rfl := NumberView.finite.inj h
      exact Binary64.ofDecimal_of_trim_eq hfinite (Decimal.trim_trim _)
    · split at h <;> exact absurd h nofun

end OutlierScoring
