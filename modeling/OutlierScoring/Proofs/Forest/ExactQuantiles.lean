import Mathlib
import OutlierScoring.Proofs.Forest.Ranks

/-!
# Quantiles that are not rounded

Where scores are rounded, so is a quantile of them, as a rule. `IsExactQuantile` says of one
quantile that it is not: it is the number that the same formula gives for the real numbers which the
scores stand for. Nothing is asked of the scores beyond being finite; however they were rounded,
they are what the quantile is one of.

This is all that the laws of quantiles need. They are those of the real numbers, carried over by the
order: how many entries are below the quantile (`IsExactQuantile.countP_lt_le`,
`IsExactQuantile.countP_lt_eq`), that there are entries on both sides of it
(`IsExactQuantile.exists_le_quantile_le`), and that it does not fall (`IsExactQuantile.mono`).

All quantiles of real numbers are exact, and so are those of floats whose rank is a position
(`isExactQuantile_of_position`), because an interpolation between an entry and itself adds nothing.
-/

namespace OutlierScoring

open OrderedScalar (value)

section Ordered

variable {α : Type} [Scalar α] [OrderedScalar α] {q q' offset offset' : α} {xs : List α}

/-- The quantile of some finite numbers is that of the real numbers that they stand for. -/
structure IsExactQuantile (q : α) (xs : List α) (offset : α) : Prop where
  finite_entries : ∀ x ∈ xs, Scalar.isFinite x = true
  finite : Scalar.isFinite offset = true
  quantile?_eq : quantile? (value q) (xs.map value) = some (value offset)

theorem isExactQuantile_real {q offset : ℝ} {xs : List ℝ} (h : quantile? q xs = some offset) :
    IsExactQuantile q xs offset where
  finite_entries _ _ := rfl
  finite := rfl
  quantile?_eq := by
    show quantile? q (xs.map id) = some offset
    rw [List.map_id, h]

/-- Finite numbers are sorted as the real numbers that they stand for. -/
theorem map_value_ascending (hfinite : ∀ x ∈ xs, Scalar.isFinite x = true) :
    (ascending xs).map value = ascending (xs.map value) := by
  refine List.map_mergeSort fun a ha b hb ↦ ?_
  rw [decide_eq_decide]
  exact OrderedScalar.le_iff (hfinite a ha) (hfinite b hb)

namespace IsExactQuantile

/-- As many entries are below the quantile as real numbers. -/
theorem countP_eq (h : IsExactQuantile q xs offset) :
    xs.countP (· < offset) = (xs.map value).countP (· < value offset) := by
  rw [List.countP_map]
  refine List.countP_congr fun x hx ↦ ?_
  rw [Function.comp_apply, decide_eq_true_iff, decide_eq_true_iff,
    OrderedScalar.lt_iff (h.finite_entries x hx) h.finite]

theorem countP_lt_le (h : IsExactQuantile q xs offset) (hq : value q ≤ 1) :
    xs.countP (· < offset) ≤ ⌈value q * (xs.length - 1 : ℕ)⌉₊ := by
  rw [h.countP_eq, ← xs.length_map value]
  exact OutlierScoring.countP_lt_le h.quantile?_eq hq

/-- Where the order tells all entries apart, all entries before the rank are below the quantile. -/
theorem countP_lt_eq (h : IsExactQuantile q xs offset) (hq : 0 ≤ value q) (hq' : value q ≤ 1)
    (hdistinct : xs.Pairwise fun a b ↦ a < b ∨ b < a) :
    xs.countP (· < offset) = ⌈value q * (xs.length - 1 : ℕ)⌉₊ := by
  have hnodup : (xs.map value).Nodup := by
    rw [List.nodup_iff_pairwise_ne, List.pairwise_map]
    refine hdistinct.imp_of_mem fun ha hb hlt ↦ ?_
    have ha := h.finite_entries _ ha
    have hb := h.finite_entries _ hb
    rw [OrderedScalar.lt_iff ha hb, OrderedScalar.lt_iff hb ha] at hlt
    exact hlt.elim (·.ne) (·.ne')
  rw [h.countP_eq, ← xs.length_map value]
  exact OutlierScoring.countP_lt_eq h.quantile?_eq hq hq' hnodup

/-- The quantile lies between two of the entries. -/
theorem exists_le_quantile_le (h : IsExactQuantile q xs offset) (hq : 0 ≤ value q)
    (hq' : value q ≤ 1) :
    ∃ low ∈ xs, ∃ high ∈ xs, value low ≤ value offset ∧ value offset ≤ value high := by
  obtain ⟨_, hlow, _, hhigh, hle, hge⟩ :=
    OutlierScoring.exists_le_quantile_le h.quantile?_eq hq hq'
  obtain ⟨low, hlow', rfl⟩ := List.mem_map.mp hlow
  obtain ⟨high, hhigh', rfl⟩ := List.mem_map.mp hhigh
  exact ⟨low, hlow', high, hhigh', hle, hge⟩

/-- The quantile does not fall when more of the entries are to be below it. -/
theorem mono (h : IsExactQuantile q xs offset) (h' : IsExactQuantile q' xs offset')
    (hq : 0 ≤ value q) (hle : value q ≤ value q') (hq' : value q' ≤ 1) :
    value offset ≤ value offset' :=
  quantile?_mono hq hle hq' h.quantile?_eq h'.quantile?_eq

end IsExactQuantile

end Ordered

section Rounded

variable {α : Type} [Scalar α] [RoundedScalar α]

/-- A difference without a remainder is not rounded. -/
theorem sub_isBetween_zero {a b : α} (ha : Scalar.isFinite a = true) (hb : Scalar.isFinite b = true)
    (h : value a = value b) : IsBetween 0 0 (a - b) := by
  have hround := RoundedScalar.sub ha hb
  rw [h, sub_self] at hround
  exact hround.isBetween (isExact_zero α) (isExact_zero α) le_rfl le_rfl

/-- An interpolation between an entry and itself, with nothing left of the rank, gives the entry. -/
theorem interpolation_isBetween {low rank position : α} (hlow : Scalar.isFinite low = true)
    (hrank : Scalar.isFinite rank = true) (hposition : Scalar.isFinite position = true)
    (h : value rank = value position) :
    IsBetween (value low) (value low) (low + (low - low) * (rank - position)) := by
  have hstep := sub_isBetween_zero hlow hlow rfl
  have hpart := sub_isBetween_zero hrank hposition h
  have hproduct := RoundedScalar.mul hstep.finite hpart.finite
  rw [hstep.value_eq, zero_mul] at hproduct
  have hzero := hproduct.isBetween (isExact_zero α) (isExact_zero α) le_rfl le_rfl
  have hsum := RoundedScalar.add hlow hzero.finite
  rw [hzero.value_eq, add_zero] at hsum
  exact hsum.isBetween ⟨low, hlow, rfl⟩ ⟨low, hlow, rfl⟩ le_rfl le_rfl

/-- A quantile is exact if its rank is a position, and is found to be that position. -/
theorem isExactQuantile_of_position {q offset : α} {xs : List α} {k : ℕ}
    (hfinite : ∀ x ∈ xs, Scalar.isFinite x = true) (hlength : xs.length ≤ 2 ^ 53)
    (hq : Scalar.isFinite q = true) (hone : value q ≤ 1)
    (hposition : value q * (xs.length - 1 : ℕ) = k)
    (hfloor : Scalar.floor (q * ((xs.length - 1 : ℕ) : α)) = k)
    (hceil : Scalar.ceil (q * ((xs.length - 1 : ℕ) : α)) = k) (h : quantile? q xs = some offset) :
    IsExactQuantile q xs offset := by
  have hne := ne_nil_of_quantile? h
  rw [quantile?, atRank?, hfloor, hceil] at h
  obtain ⟨low, hlow, h⟩ := Option.bind_eq_some_iff.mp h
  obtain ⟨high, hhigh, h⟩ := Option.bind_eq_some_iff.mp h
  obtain rfl := Option.some.inj h
  obtain rfl : low = high := Option.some.inj (hlow.symm.trans hhigh)
  have hmem : low ∈ xs := (perm_ascending xs).mem_iff.mp (List.mem_of_getElem? hlow)
  obtain ⟨hindex, -⟩ := List.getElem?_eq_some_iff.mp hlow
  rw [length_ascending] at hindex
  -- Neither the number of positions nor the rank is rounded.
  obtain ⟨hcast, hvalue⟩ := RoundedScalar.value_natCast (α := α) (hindex.trans_le hlength)
  obtain ⟨hlast, hlastValue⟩ := RoundedScalar.value_natCast (α := α) (n := xs.length - 1) (by omega)
  have hproduct := RoundedScalar.mul hq hlast
  rw [hlastValue, hposition] at hproduct
  have hrank := hproduct.isBetween ⟨_, hcast, hvalue⟩ ⟨_, hcast, hvalue⟩ le_rfl le_rfl
  have hbetween := interpolation_isBetween (hfinite low hmem) hrank.finite hcast
    (hrank.value_eq.trans hvalue.symm)
  refine ⟨hfinite, hbetween.finite, ?_⟩
  obtain ⟨_, hoffset, rfl⟩ : ∃ offset, quantile? (value q) (xs.map value) = some offset ∧
      offset = interpolate (entry (xs.map value)) (quantileRank (value q) (xs.map value)) :=
    exists_quantile?_eq hone (by simpa using hne)
  have hexact : quantileRank (value q) (xs.map value) = k := by
    rw [← hposition, ← xs.length_map value]
    rfl
  have hentry : entry (xs.map value) k = value low := by
    rw [entry, List.getD_eq_getElem?_getD, ← map_value_ascending hfinite, List.getElem?_map, hlow]
    rfl
  rw [hoffset, hbetween.value_eq, hexact, interpolate, Nat.floor_natCast, Nat.ceil_natCast, hentry,
    sub_self, zero_mul, add_zero]

end Rounded

end OutlierScoring
