import Mathlib.Data.List.TakeDrop
import Mathlib.Tactic.Ring
import OutlierScoring.Number.Numeral

/-!
# Digits and trailing zeros

The digits of a number are read back as the number, wherever they end, and trailing zeros can be
moved between the digits and the exponent of a decimal before `Decimal.trim` takes them away
(`trim_shift`).
-/

namespace OutlierScoring

/-! ### Digits at the front of a text -/

/-- No digit stands at the front of the text. -/
def NoDigit (rest : List Char) : Prop := ∀ c ∈ rest.head?, c.isDigit = false

theorem noDigit_cons {c : Char} {rest : List Char} (h : c.isDigit = false) : NoDigit (c :: rest) :=
  fun _ hc ↦ (Option.mem_some.mp hc) ▸ h

/-- A text is divided where the characters of a kind end. -/
theorem span_append {p : Char → Bool} {front rest : List Char} (hfront : ∀ c ∈ front, p c = true)
    (hrest : ∀ c ∈ rest.head?, p c = false) : (front ++ rest).span p = (front, rest) := by
  have hstop : rest.takeWhile p = [] ∧ rest.dropWhile p = rest := by
    rcases rest with _ | ⟨c, rest⟩
    · exact ⟨rfl, rfl⟩
    · have hc : p c = false := hrest c rfl
      simp [hc]
  rw [List.span_eq_takeWhile_dropWhile, List.takeWhile_append_of_pos hfront,
    List.dropWhile_append_of_pos hfront, hstop.1, hstop.2, List.append_nil]

theorem spanDigits_append {digits rest : List Char} (hdigits : ∀ c ∈ digits, c.isDigit = true)
    (hrest : NoDigit rest) : spanDigits (digits ++ rest) = (digits, rest) :=
  span_append hdigits hrest

theorem toNat_of_isDigit {c : Char} (h : c.isDigit = true) : 48 ≤ c.toNat ∧ c.toNat ≤ 57 := by
  simpa [Char.isDigit, UInt32.le_iff_toNat_le] using h

theorem isDigit_of_mem_toDigits {n : Nat} : ∀ c ∈ Nat.toDigits 10 n, c.isDigit = true :=
  fun _ hc ↦ Nat.isDigit_of_mem_toDigits (by decide) (by decide) hc

/-- The digits of a positive number do not start with a zero. -/
theorem head?_toDigits_ne_zero {n : Nat} (h : 0 < n) : (Nat.toDigits 10 n).head? ≠ some '0' := by
  induction n using Nat.strongRecOn with
  | ind n ih =>
    rw [Nat.toDigits_eq_if (by decide)]
    split
    · rename_i hn
      have : ∀ m < 10, 0 < m → Nat.digitChar m ≠ '0' := by decide
      simpa using this n hn h
    · rename_i hn
      have hne : (Nat.toDigits 10 (n / 10)).head? ≠ none := by simp
      rw [List.head?_append, Option.or_of_isSome (Option.isSome_iff_ne_none.mpr hne)]
      exact ih (n / 10) (by omega) (by omega)

theorem digitsValue_replicate_zero (start k : Nat) :
    digitsValue start (List.replicate k '0') = 10 ^ k * start :=
  Nat.ofDigitChars_replicate_zero

/-! ### Trailing zeros -/

namespace Decimal

/-- What is left where trailing zeros were taken away. -/
theorem go_spec (d : Decimal) {digits fuel : Nat} (exponent : Int) (h : 0 < digits)
    (hfuel : digits ≤ fuel) :
    ∃ k : Nat, ∃ rest, trim.go d digits exponent fuel = ⟨d.negative, rest, exponent + k⟩ ∧
      digits = rest * 10 ^ k ∧ rest % 10 ≠ 0 := by
  -- A step takes a digit away, so that a fuel as large as the number lasts.
  induction fuel generalizing digits exponent with
  | zero => omega
  | succ fuel ih =>
    rw [trim.go]
    split
    · rename_i hzero
      obtain ⟨k, rest, hgo, hdigits, hrest⟩ :=
        @ih (digits / 10) (exponent + 1) (by omega) (by omega)
      refine ⟨k + 1, rest, ?_, ?_, hrest⟩
      · rw [hgo]
        congr 1
        push_cast
        ring
      · rw [pow_succ, ← mul_assoc, ← hdigits]
        omega
    · rename_i hzero
      exact ⟨0, digits, by simp, by simp, hzero⟩

/-- A positive number is a number without trailing zeros times a power of ten in one way only. -/
theorem eq_of_mul_pow_eq {a b j k : Nat} (ha : a % 10 ≠ 0) (hb : b % 10 ≠ 0)
    (h : a * 10 ^ j = b * 10 ^ k) : a = b ∧ j = k := by
  induction j generalizing k with
  | zero =>
    rcases k with _ | k
    · simpa using h
    · rw [pow_succ, ← mul_assoc] at h
      omega
  | succ j ih =>
    rcases k with _ | k
    · rw [pow_succ, ← mul_assoc] at h
      omega
    · have h : a * 10 ^ j = b * 10 ^ k := by
        rw [pow_succ, pow_succ, ← mul_assoc, ← mul_assoc] at h
        omega
      obtain ⟨rfl, rfl⟩ := ih h
      exact ⟨rfl, rfl⟩

theorem trim_of_pos (d : Decimal) (h : 0 < d.digits) :
    ∃ k : Nat, ∃ rest, d.trim = ⟨d.negative, rest, d.exponent + k⟩ ∧ d.digits = rest * 10 ^ k ∧
      rest % 10 ≠ 0 := by
  rw [trim, if_neg (by omega)]
  exact d.go_spec d.exponent h le_rfl

theorem trim_of_zero (negative : Bool) (exponent : Int) :
    trim ⟨negative, 0, exponent⟩ = ⟨negative, 0, 0⟩ := rfl

/-- Zeros at the end of the digits count as much as in the exponent. -/
theorem trim_shift (negative : Bool) (digits k : Nat) (exponent : Int) :
    trim ⟨negative, digits * 10 ^ k, exponent⟩ = trim ⟨negative, digits, exponent + k⟩ := by
  rcases Nat.eq_zero_or_pos digits with rfl | hpos
  · rw [Nat.zero_mul, trim_of_zero, trim_of_zero]
  · have hpow : 0 < 10 ^ k := Nat.pow_pos (by decide)
    obtain ⟨i, a, htrim, hdigits, ha⟩ :=
      trim_of_pos ⟨negative, digits * 10 ^ k, exponent⟩ (Nat.mul_pos hpos hpow)
    obtain ⟨j, b, htrim', hdigits', hb⟩ :=
      trim_of_pos ⟨negative, digits, exponent + k⟩ hpos
    have hsame : a * 10 ^ i = b * 10 ^ (j + k) := by
      rw [pow_add, ← mul_assoc, ← hdigits, ← hdigits']
    obtain ⟨rfl, rfl⟩ := eq_of_mul_pow_eq ha hb hsame
    rw [htrim, htrim']
    congr 1
    push_cast
    ring

/-- A trimmed decimal has no trailing zeros, and zero has no exponent. -/
theorem trim_digits (d : Decimal) :
    d.trim.digits % 10 ≠ 0 ∨ d.trim.digits = 0 ∧ d.trim.exponent = 0 := by
  obtain ⟨negative, digits, exponent⟩ := d
  rcases Nat.eq_zero_or_pos digits with rfl | hpos
  · exact .inr ⟨rfl, rfl⟩
  · obtain ⟨k, rest, htrim, -, hrest⟩ := trim_of_pos ⟨negative, digits, exponent⟩ hpos
    exact .inl (htrim ▸ hrest)

@[simp]
theorem trim_trim (d : Decimal) : d.trim.trim = d.trim := by
  rcases d.trim_digits with h | ⟨hdigits, hexponent⟩
  · obtain ⟨k, rest, htrim, hdigits, -⟩ := trim_of_pos d.trim (by omega)
    rcases k with _ | k
    · rw [htrim, show rest = d.trim.digits by simpa using hdigits.symm]
      simp
    · rw [hdigits, pow_succ, ← mul_assoc] at h
      omega
  · rw [trim, if_pos hdigits, ← hexponent]

end Decimal

end OutlierScoring
