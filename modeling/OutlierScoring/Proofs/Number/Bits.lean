import Mathlib
import OutlierScoring.Number.Binary64

/-!
# The fields of a float

A float is made of three fields: a sign, an exponent and a fraction. It is finite exactly if the
exponent is not the largest one (`isFinite_iff_biased`), and then `Binary64.assemble` makes the
float of the parts that `Binary64.split` finds (`assemble_split`). Floats that unpack alike are the
same, those that are no numbers included (`eq_of_unpack_eq`).
-/

namespace OutlierScoring.Binary64

open Float.Model.UnpackedFloat
open Float.Model (Format UnpackedFloat)

/-! ### Packed floats -/

theorem exponentBias_eq : Format.binary64.exponentBias = 1023 := rfl

theorem mantissaBits_eq : Format.binary64.mantissaBits = 53 := rfl

/-- No bits are lost: there is only one NaN. -/
theorem pack_unpack (x : Float) :
    pack .binary64 x.toModel.unpack = x.toModel.toBits.toBitVec := by
  rw [Float.Model.unpack, Float.Model.UnpackedFloat.pack_unpack]
  split
  · rename_i hnan
    obtain ⟨hexponent, hmantissa⟩ := of_decide_eq_true hnan
    exact (x.toModel.valid.eq_packedNaN hexponent hmantissa).symm
  · rfl

theorem eq_of_unpack_eq {x y : Float} (h : x.toModel.unpack = y.toModel.unpack) : x = y := by
  have hbits := (pack_unpack x).symm.trans ((congrArg (pack .binary64) h).trans (pack_unpack y))
  rcases x with ⟨⟨⟨x⟩, _⟩⟩
  rcases y with ⟨⟨⟨y⟩, _⟩⟩
  obtain rfl : x = y := hbits
  rfl

theorem isFinite_unpack (b : BitVec Format.binary64.numBits) :
    (unpack .binary64 b).isFinite = true ↔ unpackExponent b ≠ -1#11 := by
  rw [unpack]
  simp only
  split
  · rename_i hexponent
    split <;> exact ⟨nofun, fun h ↦ absurd hexponent h⟩
  · rename_i hexponent
    refine ⟨fun _ ↦ hexponent, fun _ ↦ ?_⟩
    split
    · split <;> rfl
    · rfl

/-! ### Fields of a float -/

/-- The stored bits of the significand. -/
def fraction (x : Float) : Nat := x.toBits.toNat % 2 ^ 52

/-- The stored exponent. -/
def biased (x : Float) : Nat := x.toBits.toNat / 2 ^ 52 % 2 ^ 11

theorem isFinite_iff_biased (x : Float) : x.isFinite = true ↔ biased x ≠ 2047 := by
  have hfield (b : BitVec Format.binary64.numBits) :
      (unpackExponent b).toNat = b.toNat / 2 ^ 52 % 2 ^ 11 := by
    rw [unpackExponent, BitVec.toNat_cast, BitVec.extractLsb_toNat, Nat.shiftRight_eq_div_pow]
    rfl
  have hunpack := isFinite_unpack x.toModel.toBits.toBitVec
  rw [ne_eq, ← BitVec.toNat_inj, hfield] at hunpack
  exact hunpack

theorem split_eq (x : Float) :
    split x = if biased x = 0 then (fraction x, -1074)
      else (hiddenBit + fraction x, (biased x : Int) - 1075) := by
  have hfraction : (x.toBits &&& 0xFFFFFFFFFFFFF).toNat = fraction x := by
    rw [UInt64.toNat_and]
    exact Nat.and_two_pow_sub_one_eq_mod x.toBits.toNat 52
  have hbiased : ((x.toBits >>> 52) &&& 0x7FF).toNat = biased x := by
    rw [UInt64.toNat_and, UInt64.toNat_shiftRight, Nat.shiftRight_eq_div_pow]
    exact Nat.and_two_pow_sub_one_eq_mod _ 11
  rw [split]
  simp only [hfraction, hbiased]

theorem isNegative_iff (x : Float) : isNegative x = true ↔ x.toBits.toNat / 2 ^ 63 = 1 := by
  rw [isNegative, beq_iff_eq, ← UInt64.toNat_inj, UInt64.toNat_shiftRight,
    Nat.shiftRight_eq_div_pow]
  rfl

/-- The bits of a float are those of its fields. -/
theorem toNat_toBits (x : Float) :
    x.toBits.toNat = (isNegative x).toNat * 2 ^ 63 + (biased x * 2 ^ 52 + fraction x) := by
  have hsign : (isNegative x).toNat = x.toBits.toNat / 2 ^ 63 := by
    have hlt := x.toBits.toNat_lt
    rcases hnegative : isNegative x
    · have hne := mt (isNegative_iff x).mpr (by simp [hnegative])
      rw [Bool.toNat_false]
      omega
    · rw [(isNegative_iff x).mp hnegative, Bool.toNat_true]
  rw [hsign, biased, fraction]
  omega

theorem ofBits_or {x : Float} {magnitude : Nat}
    (hmagnitude : magnitude = biased x * 2 ^ 52 + fraction x) :
    Float.ofBits ((if isNegative x then 0x8000000000000000 else 0) ||| magnitude.toUInt64) = x := by
  have hbits :
      (if isNegative x then 0x8000000000000000 else 0) ||| magnitude.toUInt64 = x.toBits := by
    have hbiased : biased x < 2 ^ 11 := Nat.mod_lt _ (by decide)
    have hfraction : fraction x < 2 ^ 52 := Nat.mod_lt _ (by decide)
    have hlt : magnitude < 2 ^ 63 := by omega
    have hsign : (if isNegative x then (0x8000000000000000 : UInt64) else 0).toNat =
        (isNegative x).toNat <<< 63 := by
      cases isNegative x <;> rfl
    have hmod : magnitude.toUInt64.toNat = magnitude := by
      rw [Nat.toUInt64, UInt64.toNat_ofNat']
      exact Nat.mod_eq_of_lt (by omega)
    rw [← UInt64.toNat_inj, UInt64.toNat_or, hsign, hmod, ← Nat.shiftLeft_add_eq_or_of_lt hlt,
      toNat_toBits, hmagnitude, Nat.shiftLeft_eq]
  rw [hbits, Float.ofBits_toBits]

theorem assemble_of_ne (negative : Bool) {m : Nat} (q : Int) (h : m ≠ 2 * hiddenBit) :
    assemble negative m q =
      .ofBits ((if negative then (0x8000000000000000 : UInt64) else 0) |||
        (if m < hiddenBit then m
          else if 971 < q then 0x7FF <<< 52
          else (q + 1075).toNat <<< 52 + (m - hiddenBit)).toUInt64) := by
  rw [assemble, if_neg h]

/-- Rounding up may carry into one more binary digit. -/
theorem assemble_carry (negative : Bool) (q : Int) :
    assemble negative (2 * hiddenBit) (q - 1) = assemble negative hiddenBit q := by
  rw [assemble_of_ne negative q (by decide : hiddenBit ≠ 2 * hiddenBit), assemble, if_pos rfl,
    Int.sub_add_cancel]

/-- A finite float is made of its parts. -/
theorem assemble_split {x : Float} (h : x.isFinite = true) :
    assemble (isNegative x) (split x).1 (split x).2 = x := by
  have hfraction : fraction x < hiddenBit := Nat.mod_lt _ (by decide)
  have hbiased : biased x < 2047 := by
    have hlt : biased x < 2 ^ 11 := Nat.mod_lt _ (by decide)
    have hne := (isFinite_iff_biased x).mp h
    omega
  rw [split_eq]
  -- Subnormal floats have no hidden bit, and their exponent is that of the least normal ones.
  split
  · rename_i hzero
    rw [assemble_of_ne _ _ (by simp only; omega), if_pos hfraction]
    exact ofBits_or (by rw [hzero, Nat.zero_mul, Nat.zero_add])
  · rename_i hnonzero
    have hmagnitude : ((biased x : Int) - 1075 + 1075).toNat <<< 52 +
        (hiddenBit + fraction x - hiddenBit) = biased x * 2 ^ 52 + fraction x := by
      rw [Int.sub_add_cancel, Int.toNat_natCast, Nat.add_sub_cancel_left, Nat.shiftLeft_eq]
    have hnormal : ¬hiddenBit + fraction x < hiddenBit := by omega
    have hrange : ¬971 < (biased x : Int) - 1075 := by omega
    rw [assemble_of_ne _ _ (by simp only; omega), if_neg hnormal, if_neg hrange, hmagnitude]
    exact ofBits_or rfl

end OutlierScoring.Binary64
