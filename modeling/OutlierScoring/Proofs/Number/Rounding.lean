import Mathlib.Algebra.Order.Field.Power
import Mathlib.Data.Rat.Cast.Order
import Mathlib.Tactic.Linarith
import Mathlib.Tactic.Positivity
import Mathlib.Tactic.FieldSimp
import Mathlib.Tactic.NormNum
import Mathlib.Tactic.Ring
import OutlierScoring.Proofs.Number.Bits
import OutlierScoring.Number.Shortest

/-!
# Rounding fractions

To every float belongs an interval of numbers that round to it, and `Binary64.roundFraction` takes
every fraction in it to that float (`roundFraction_eq`). The interval is closed exactly if the
significand is even, and it is shorter below a power of two, where the significand is least.

The proof works in units of the last digit of the significand. A fraction in the interval has as
many binary digits as the float, but for one case: just below a power of two it has one digit less,
and rounding it up carries into the missing one.
-/

namespace OutlierScoring

/-- The numbers in an interval. -/
def Shortest.Interval.Contains (i : Shortest.Interval) (r : ℚ) : Prop :=
  if i.closed then (i.low : ℚ) * 2 ^ i.scale ≤ r ∧ r ≤ i.high * 2 ^ i.scale
  else (i.low : ℚ) * 2 ^ i.scale < r ∧ r < i.high * 2 ^ i.scale

namespace Binary64

/-! ### Fractions -/

theorem divideEven_eq {n d m : Nat} (hlow : 2 * (m * d) ≤ 2 * n + d)
    (hhigh : 2 * n ≤ 2 * (m * d) + d)
    (hodd : m % 2 = 1 → 2 * (m * d) < 2 * n + d ∧ 2 * n < 2 * (m * d) + d) (hd : 0 < d) :
    divideEven n d = m := by
  have hsplit : n / d * d + n % d = n := Nat.div_add_mod' n d
  have hrest : n % d < d := Nat.mod_lt n hd
  have hfloor : n / d ≤ m := by
    by_contra h
    have := Nat.mul_le_mul_right d (Nat.not_le.mp h)
    rw [Nat.succ_mul] at this
    omega
  have hceil : m ≤ n / d + 1 := by
    by_contra h
    have := Nat.mul_le_mul_right d (Nat.not_le.mp h)
    rw [Nat.succ_mul, Nat.succ_mul] at this
    omega
  rw [divideEven]
  rcases Nat.lt_or_ge (n / d) m with hlt | hge
  · obtain rfl : m = n / d + 1 := by omega
    rw [Nat.add_one_mul (n / d) d] at hlow hhigh hodd
    split
    · omega
    · split
      · rfl
      · omega
  · obtain hm : m = n / d := by omega
    rw [← hm] at hsplit ⊢
    split
    · rfl
    · split
      · omega
      · omega

/-- A shift to the left is a multiplication by a power of two, whichever side it is on. -/
theorem div_shiftLeft (n d : Nat) (e : Int) :
    ((n <<< (-e).toNat : Nat) : ℚ) / (d <<< e.toNat : Nat) = n / d / 2 ^ e := by
  rw [Nat.shiftLeft_eq, Nat.shiftLeft_eq]
  push_cast
  rcases Int.le_total 0 e with h | h
  · obtain ⟨k, rfl⟩ := Int.eq_ofNat_of_zero_le h
    simp [div_mul_eq_div_div]
  · obtain ⟨k, hk⟩ := Int.eq_ofNat_of_zero_le (Int.neg_nonneg.mpr h)
    obtain rfl : e = -(k : Int) := by omega
    simp [div_mul_eq_mul_div]

theorem log2_bounds {n : Nat} (h : 0 < n) : (2 : ℚ) ^ n.log2 ≤ n ∧ (n : ℚ) < 2 ^ (n.log2 + 1) := by
  have hle := Nat.log2_self_le (Nat.ne_of_gt h)
  have hlt := Nat.lt_log2_self (n := n)
  exact ⟨by exact_mod_cast hle, by exact_mod_cast hlt⟩

/-- The order of magnitude of a fraction. -/
theorem order_bounds {n d : Nat} (hn : 0 < n) (hd : 0 < d) :
    (2 : ℚ) ^ order n d ≤ n / d ∧ (n : ℚ) / d < 2 ^ (order n d + 1) := by
  obtain ⟨hnlow, hnhigh⟩ := log2_bounds hn
  obtain ⟨hdlow, hdhigh⟩ := log2_bounds hd
  have hd' : (0 : ℚ) < d := by exact_mod_cast hd
  -- The first guess at the order is off by one at most, and the test tells which way.
  let e : Int := n.log2 - d.log2
  have hlow : (2 : ℚ) ^ (e - 1) ≤ n / d := by
    rw [le_div_iff₀ hd']
    calc (2 : ℚ) ^ (e - 1) * d ≤ 2 ^ (e - 1) * 2 ^ (d.log2 + 1) := by gcongr
      _ = 2 ^ n.log2 := by
        rw [← zpow_natCast, ← zpow_natCast, ← zpow_add₀ two_ne_zero]
        congr 1
        push_cast
        omega
      _ ≤ n := hnlow
  have hhigh : (n : ℚ) / d < 2 ^ (e + 1) := by
    rw [div_lt_iff₀ hd']
    calc (n : ℚ) < 2 ^ (n.log2 + 1) := hnhigh
      _ = 2 ^ (e + 1) * 2 ^ d.log2 := by
        rw [← zpow_natCast, ← zpow_natCast, ← zpow_add₀ two_ne_zero]
        congr 1
        push_cast
        omega
      _ ≤ 2 ^ (e + 1) * d := by gcongr
  have hshift := div_shiftLeft n d e
  have hpos : (0 : ℚ) < (d <<< e.toNat : Nat) := by
    rw [Nat.shiftLeft_eq]
    positivity
  have htest : n <<< (-e).toNat < d <<< e.toNat ↔ (n : ℚ) / d < 2 ^ e := by
    rw [← Nat.cast_lt (α := ℚ), ← div_lt_one hpos, hshift, div_lt_one (by positivity)]
  rw [order]
  split
  · rename_i hless
    exact ⟨hlow, by rw [Int.sub_add_cancel]; exact htest.mp hless⟩
  · rename_i hless
    exact ⟨not_lt.mp (mt htest.mpr hless), hhigh⟩

theorem divideEven_eq_of_bounds {n d m : Nat} (hd : 0 < d) (hlow : (m : ℚ) - 1 / 2 ≤ n / d)
    (hhigh : (n : ℚ) / d ≤ m + 1 / 2)
    (hodd : m % 2 = 1 → (m : ℚ) - 1 / 2 < n / d ∧ (n : ℚ) / d < m + 1 / 2) :
    divideEven n d = m := by
  have hd' : (0 : ℚ) < d := by exact_mod_cast hd
  rw [le_div_iff₀ hd'] at hlow
  rw [div_le_iff₀ hd'] at hhigh
  rw [lt_div_iff₀ hd', div_lt_iff₀ hd'] at hodd
  refine divideEven_eq ?_ ?_ (fun h ↦ ⟨?_, ?_⟩) hd
  · have : (2 * (m * d) : ℚ) ≤ 2 * n + d := by linarith
    exact_mod_cast this
  · have : (2 * n : ℚ) ≤ 2 * (m * d) + d := by linarith
    exact_mod_cast this
  · have : (2 * (m * d) : ℚ) < 2 * n + d := by linarith [(hodd h).1]
    exact_mod_cast this
  · have : (2 * n : ℚ) < 2 * (m * d) + d := by linarith [(hodd h).2]
    exact_mod_cast this

/-! ### Rounding -/

/-- A significand and an exponent of a float that is not zero. -/
structure IsForm (m : Nat) (q : Int) : Prop where
  pos : 0 < m
  lt : m < 2 * hiddenBit
  le : -1074 ≤ q
  normal : hiddenBit ≤ m ∨ q = -1074

/-- The bounds of an interval, in units of the last digit of the significand. -/
theorem bounds_of_contains {m : Nat} {q : Int} {r : ℚ} (hm : 0 < m)
    (h : (Shortest.Interval.around m q).Contains r) :
    ((m : ℚ) - 1 / 2 ≤ r / 2 ^ q ∧ r / 2 ^ q ≤ m + 1 / 2) ∧
    (m % 2 = 1 → (m : ℚ) - 1 / 2 < r / 2 ^ q ∧ r / 2 ^ q < m + 1 / 2) ∧
    (m = hiddenBit → -1074 < q → (m : ℚ) - 1 / 4 ≤ r / 2 ^ q) := by
  have hpower : (0 : ℚ) < 2 ^ q := by positivity
  have hscale : (2 : ℚ) ^ (q - 2) = 2 ^ q / 4 := by
    rw [zpow_sub₀ two_ne_zero]
    norm_num
  -- The low bound is closer where the float below has one digit less, and it is a natural.
  obtain ⟨low, hlow⟩ : ∃ low, low = if m = hiddenBit ∧ -1074 < q then 4 * m - 1 else 4 * m - 2 :=
    ⟨_, rfl⟩
  have hnear : m = hiddenBit → -1074 < q → (low : ℚ) = 4 * m - 1 := by
    intro hhidden hq
    rw [hlow, if_pos ⟨hhidden, hq⟩, Nat.cast_sub (by omega)]
    push_cast
    rfl
  have hfar : 4 * (m : ℚ) - 2 ≤ low := by
    have hle : 4 * m ≤ low + 2 := by
      rw [hlow]
      split <;> omega
    have : (4 * m : ℚ) ≤ low + 2 := by exact_mod_cast hle
    linarith
  have hunit (a : ℚ) : a * 2 ^ (q - 2) = a / 4 * 2 ^ q := by
    rw [hscale]
    ring
  rw [Shortest.Interval.Contains, Shortest.Interval.around] at h
  simp only [← hlow, decide_eq_true_eq, hunit, ← le_div_iff₀ hpower, ← div_le_iff₀ hpower,
    ← lt_div_iff₀ hpower, ← div_lt_iff₀ hpower] at h
  push_cast at h
  rcases Nat.mod_two_eq_zero_or_one m with heven | hodd
  · rw [if_pos heven] at h
    refine ⟨⟨by linarith, by linarith⟩, fun hodd ↦ by omega, fun hhidden hq ↦ ?_⟩
    have := hnear hhidden hq
    linarith
  · rw [if_neg (by omega)] at h
    refine ⟨⟨by linarith, by linarith⟩, fun _ ↦ ⟨by linarith, by linarith⟩, fun hhidden hq ↦ ?_⟩
    have := hnear hhidden hq
    linarith

theorem hiddenBit_eq : (hiddenBit : ℚ) = 2 ^ (52 : Int) := by
  rw [hiddenBit, Nat.shiftLeft_eq]
  norm_num

theorem shiftLeft_pos {d : Nat} (hd : 0 < d) (k : Nat) : 0 < d <<< k := by
  rw [Nat.shiftLeft_eq]
  positivity

section Contained

variable {m n d : Nat} {q : Int} (hform : IsForm m q) (hd : 0 < d)
  (h : (Shortest.Interval.around m q).Contains ((n : ℚ) / d))

include hform h

theorem pos_of_contains : 0 < n := by
  obtain ⟨⟨hlow, -⟩, -⟩ := bounds_of_contains hform.pos h
  have hm : (1 : ℚ) ≤ m := by exact_mod_cast hform.pos
  rcases Nat.eq_zero_or_pos n with rfl | hpos
  · simp only [Nat.cast_zero, zero_div] at hlow
    linarith
  · exact hpos

include hd

/-- A fraction has at most as many digits as the float that it is rounded to. -/
theorem order_lt_of_contains : order n d < 53 + q := by
  obtain ⟨⟨-, hhigh⟩, -⟩ := bounds_of_contains hform.pos h
  have hpower : (0 : ℚ) < 2 ^ q := by positivity
  have htop : (n : ℚ) / d / 2 ^ q < 2 ^ (53 : Int) := by
    have hlt := hform.lt
    have : (m : ℚ) + 1 ≤ 2 * hiddenBit := by exact_mod_cast hlt
    rw [hiddenBit_eq] at this
    norm_num at this ⊢
    linarith
  rw [div_lt_iff₀ hpower, ← zpow_add₀ two_ne_zero] at htop
  have hlow := (order_bounds (pos_of_contains hform h) hd).1
  exact (zpow_lt_zpow_iff_right₀ one_lt_two).mp (hlow.trans_lt htop)

/-- Only just below a power of two does a fraction have fewer digits than the float that it is
rounded to, and then it has one digit less. -/
theorem order_eq_of_contains (hq : -1074 < q) (hless : order n d < 52 + q) :
    m = hiddenBit ∧ order n d = 51 + q ∧ (n : ℚ) / d / 2 ^ q < 2 ^ (52 : Int) := by
  obtain ⟨⟨hlow, -⟩, -, hnear⟩ := bounds_of_contains hform.pos h
  have hpower : (0 : ℚ) < 2 ^ q := by positivity
  have horder := (order_bounds (pos_of_contains hform h) hd).2
  have hbelow : (n : ℚ) / d / 2 ^ q < 2 ^ (52 : Int) := by
    rw [div_lt_iff₀ hpower, ← zpow_add₀ two_ne_zero]
    exact horder.trans_le (zpow_le_zpow_right₀ one_le_two (by omega))
  have hhidden : m = hiddenBit := by
    refine Nat.le_antisymm (Nat.le_of_lt_succ ?_) (hform.normal.resolve_right (by omega))
    have : (m : ℚ) < (hiddenBit + 1 : Nat) := by
      push_cast
      rw [hiddenBit_eq]
      linarith
    exact_mod_cast this
  have hclose := hnear hhidden hq
  rw [hhidden, hiddenBit_eq] at hclose
  have hleast : 51 + q < order n d + 1 := by
    have : (2 : ℚ) ^ (51 : Int) ≤ n / d / 2 ^ q := by
      norm_num at hclose ⊢
      linarith
    rw [le_div_iff₀ hpower, ← zpow_add₀ two_ne_zero] at this
    exact (zpow_lt_zpow_iff_right₀ one_lt_two).mp (this.trans_lt horder)
  exact ⟨hhidden, by omega, hbelow⟩

/-- A fraction is rounded to the float in whose interval it lies. -/
theorem roundFraction_eq (negative : Bool) :
    roundFraction negative n d = assemble negative m q := by
  obtain ⟨⟨hlow, hhigh⟩, hodd, hnear⟩ := bounds_of_contains hform.pos h
  have hmost := order_lt_of_contains hform hd h
  have hq := hform.le
  rw [roundFraction]
  by_cases ht : max (order n d - 52) (-1074) = q
  · rw [ht, divideEven_eq_of_bounds (m := m) (shiftLeft_pos hd _)]
    · rwa [div_shiftLeft]
    · rwa [div_shiftLeft]
    · rwa [div_shiftLeft]
  · -- With one digit less, the quotient is rounded up to a power of two, which carries.
    obtain ⟨hhidden, horder, hbelow⟩ := order_eq_of_contains hform hd h (by omega) (by omega)
    have hclose := hnear hhidden (by omega)
    have ht' : max (order n d - 52) (-1074) = q - 1 := by omega
    have hdouble : (n : ℚ) / d / 2 ^ (q - 1) = 2 * (n / d / 2 ^ q) := by
      rw [zpow_sub₀ two_ne_zero]
      field_simp
    rw [hhidden, hiddenBit_eq] at hclose
    rw [ht', hhidden, ← assemble_carry]
    congr 1
    refine divideEven_eq_of_bounds (shiftLeft_pos hd _) ?_ ?_ fun hodd ↦ absurd hodd (by decide)
    all_goals
      rw [div_shiftLeft, hdouble]
      push_cast
      rw [hiddenBit_eq]
      norm_num at hclose hbelow ⊢
      linarith

end Contained

end Binary64

end OutlierScoring
