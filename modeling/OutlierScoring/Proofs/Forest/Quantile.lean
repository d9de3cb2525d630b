import Mathlib.Tactic.Linarith
import Mathlib.Tactic.Positivity
import OutlierScoring.Forest.Quantile
import OutlierScoring.Model
import OutlierScoring.Proofs.Number.Exact

/-!
# Quantiles of exact numbers

The `q`-quantile of some numbers that are not rounded is the interpolation of the ascending numbers
at the rank `q · (n - 1)` (`exists_quantile?_eq`). It lies between the two entries around the rank,
so that the rank, rounded up, bounds how many entries are below it (`countP_lt_le`), and tells their
number where no two entries are equal (`countP_lt_eq`). It does not fall when `q` grows
(`quantile?_mono`).
-/

namespace OutlierScoring

/-! ### Interpolation -/

/-- The entry of a sequence at a rank, which may lie between two positions. -/
noncomputable def interpolate (s : ℕ → ℝ) (rank : ℝ) : ℝ :=
  s ⌊rank⌋₊ + (s ⌈rank⌉₊ - s ⌊rank⌋₊) * (rank - ⌊rank⌋₊)

section Interpolation

variable {s : ℕ → ℝ} {top : ℕ} {rank : ℝ}

/-- Either the rank is a position, or it lies strictly between two neighbours. -/
theorem rank_cases (h : 0 ≤ rank) :
    (⌈rank⌉₊ = ⌊rank⌋₊ ∧ rank = ⌊rank⌋₊) ∨
      (⌈rank⌉₊ = ⌊rank⌋₊ + 1 ∧ (⌊rank⌋₊ : ℝ) < rank ∧ rank < ⌊rank⌋₊ + 1) := by
  have hfloor := Nat.floor_le h
  have hlt := Nat.lt_floor_add_one rank
  rcases hfloor.eq_or_lt with heq | hless
  · refine .inl ⟨?_, heq.symm⟩
    conv_lhs => rw [← heq, Nat.ceil_natCast]
  · refine .inr ⟨?_, hless, hlt⟩
    rw [Nat.ceil_eq_iff (Nat.succ_ne_zero _), Nat.succ_sub_one]
    exact ⟨hless, by push_cast; exact hlt.le⟩

theorem le_interpolate (h : 0 ≤ rank) (hs : s ⌊rank⌋₊ ≤ s ⌈rank⌉₊) :
    s ⌊rank⌋₊ ≤ interpolate s rank := by
  have := mul_nonneg (sub_nonneg.mpr hs) (sub_nonneg.mpr (Nat.floor_le h))
  rw [interpolate]
  linarith

theorem interpolate_le (hs : s ⌊rank⌋₊ ≤ s ⌈rank⌉₊) : interpolate s rank ≤ s ⌈rank⌉₊ := by
  have hpart : rank - ⌊rank⌋₊ ≤ 1 := by linarith [Nat.lt_floor_add_one rank]
  have := mul_le_mul_of_nonneg_left hpart (sub_nonneg.mpr hs)
  rw [interpolate]
  linarith

variable (hs : MonotoneOn s (Set.Iic top))

include hs

theorem floor_le_ceil (htop : ⌈rank⌉₊ ≤ top) : s ⌊rank⌋₊ ≤ s ⌈rank⌉₊ :=
  hs (Set.mem_Iic.mpr ((Nat.floor_le_ceil rank).trans htop)) (Set.mem_Iic.mpr htop)
    (Nat.floor_le_ceil rank)

/-- The interpolation does not fall along an ascending sequence. -/
theorem interpolate_mono {rank' : ℝ} (h : 0 ≤ rank) (hle : rank ≤ rank') (htop : ⌈rank'⌉₊ ≤ top) :
    interpolate s rank ≤ interpolate s rank' := by
  have htop' : ⌈rank⌉₊ ≤ top := (Nat.ceil_mono hle).trans htop
  have hceil := interpolate_le (floor_le_ceil hs htop')
  have hfloor := le_interpolate (h.trans hle) (floor_le_ceil hs htop)
  rcases (Nat.floor_mono hle).eq_or_lt with hsame | hbefore
  · rcases rank_cases h with ⟨hposition, hrank⟩ | ⟨hnext, hless, -⟩
    · -- At a position the interpolation is the entry, from which the other one sets out.
      rw [hposition, hsame] at hceil
      exact hceil.trans hfloor
    · -- Between the same two positions it is linear.
      rcases rank_cases (h.trans hle) with ⟨-, hrank'⟩ | ⟨hnext', -, -⟩
      · rw [hrank', ← hsame] at hle
        exact absurd hless (not_lt.mpr hle)
      · have hstep : 0 ≤ s ⌈rank⌉₊ - s ⌊rank⌋₊ := sub_nonneg.mpr (floor_le_ceil hs htop')
        rw [interpolate, interpolate, hnext', ← hsame, ← hnext]
        have := mul_le_mul_of_nonneg_left (sub_le_sub_right hle (⌊rank⌋₊ : ℝ)) hstep
        linarith
  · -- Otherwise an entry stands between the two.
    have hbetween : ⌈rank⌉₊ ≤ ⌊rank'⌋₊ := by
      rcases rank_cases h with ⟨hposition, -⟩ | ⟨hnext, -, -⟩ <;> omega
    have hmiddle : s ⌈rank⌉₊ ≤ s ⌊rank'⌋₊ :=
      hs (Set.mem_Iic.mpr htop') (Set.mem_Iic.mpr ((Nat.floor_le_ceil rank').trans htop)) hbetween
    exact hceil.trans (hmiddle.trans hfloor)

omit hs in
/-- Where the sequence rises at each step, the entries before the rank are below the
interpolation. -/
theorem lt_interpolate (hs : StrictMonoOn s (Set.Iic top)) (h : 0 ≤ rank) (htop : ⌈rank⌉₊ ≤ top)
    {i : ℕ} (hi : i < ⌈rank⌉₊) : s i < interpolate s rank := by
  have hle := floor_le_ceil hs.monotoneOn htop
  have hfloor : ⌊rank⌋₊ ∈ Set.Iic top := Set.mem_Iic.mpr ((Nat.floor_le_ceil rank).trans htop)
  have hmem : i ∈ Set.Iic top := Set.mem_Iic.mpr (hi.le.trans htop)
  rcases rank_cases h with ⟨hposition, -⟩ | ⟨hnext, hless, -⟩
  · exact (hs hmem hfloor (hposition ▸ hi)).trans_le (le_interpolate h hle)
  · have hbelow : s i ≤ s ⌊rank⌋₊ := hs.monotoneOn hmem hfloor (by omega)
    have hstep : 0 < s ⌈rank⌉₊ - s ⌊rank⌋₊ :=
      sub_pos.mpr (hs hfloor (Set.mem_Iic.mpr htop) (by omega))
    have := mul_pos hstep (sub_pos.mpr hless)
    rw [interpolate]
    linarith

end Interpolation

/-! ### Counting -/

/-- At most as many entries have a property as stand before a position from which on none has. -/
theorem countP_le_of_getElem {α : Type} {p : α → Bool} {xs : List α} {k : ℕ}
    (h : ∀ i (hi : i < xs.length), k ≤ i → p xs[i] = false) : xs.countP p ≤ k := by
  have hdrop : (xs.drop k).countP p = 0 := by
    rw [List.countP_eq_zero]
    intro x hx
    obtain ⟨i, hi, rfl⟩ := List.mem_iff_getElem.mp hx
    rw [List.length_drop] at hi
    rw [List.getElem_drop, h (k + i) (by omega) (Nat.le_add_right k i)]
    exact Bool.false_ne_true
  calc xs.countP p = (xs.take k).countP p + (xs.drop k).countP p := by
        rw [← List.countP_append, List.take_append_drop]
    _ = (xs.take k).countP p := by rw [hdrop, Nat.add_zero]
    _ ≤ (xs.take k).length := List.countP_le_length
    _ ≤ k := List.length_take_le k xs

/-- At least as many entries have a property as stand before a position up to which all have. -/
theorem le_countP_of_getElem {α : Type} {p : α → Bool} {xs : List α} {k : ℕ} (hk : k ≤ xs.length)
    (h : ∀ i (hi : i < xs.length), i < k → p xs[i] = true) : k ≤ xs.countP p := by
  have htake : (xs.take k).countP p = (xs.take k).length := by
    rw [List.countP_eq_length]
    intro x hx
    obtain ⟨i, hi, rfl⟩ := List.mem_iff_getElem.mp hx
    rw [List.length_take] at hi
    rw [List.getElem_take]
    exact h i (by omega) (by omega)
  calc k = (xs.take k).countP p := by rw [htake, List.length_take, Nat.min_eq_left hk]
    _ ≤ xs.countP p := (List.take_sublist k xs).countP_le

/-! ### Ascending numbers -/

section Entries

variable {α : Type} [Scalar α] [ExactScalar α] {q : α} {xs : List α}

open ExactScalar (value value_injective)

omit [ExactScalar α] in
theorem perm_ascending (xs : List α) : (ascending xs).Perm xs := List.mergeSort_perm xs _

theorem pairwise_ascending (xs : List α) : (ascending xs).Pairwise (value · ≤ value ·) := by
  have hle (a b : α) : decide (a ≤ b) = true ↔ value a ≤ value b := by
    rw [decide_eq_true_iff, ExactScalar.le_iff]
  refine (List.pairwise_mergeSort (fun a b c ↦ ?_) (fun a b ↦ ?_) xs).imp fun {a b} ↦ (hle a b).mp
  · rw [hle, hle, hle]
    exact le_trans
  · rw [Bool.or_eq_true, hle, hle]
    exact le_total _ _

/-- The ascending numbers by their positions. -/
noncomputable def entry (xs : List α) (i : ℕ) : ℝ := value ((ascending xs).getD i 0)

theorem entry_eq {i : ℕ} (hi : i < (ascending xs).length) :
    entry xs i = value (ascending xs)[i] := by
  rw [entry, List.getD_eq_getElem?_getD, List.getElem?_eq_getElem hi, Option.getD_some]

omit [ExactScalar α] in
theorem length_ascending (xs : List α) : (ascending xs).length = xs.length :=
  (perm_ascending xs).length_eq

omit [ExactScalar α] in
theorem lt_length_ascending {i j : ℕ} (hj : j ∈ Set.Iic (xs.length - 1)) (hlt : i < j) :
    j < (ascending xs).length := by
  have := Set.mem_Iic.mp hj
  rw [length_ascending]
  omega

theorem monotoneOn_entry (xs : List α) : MonotoneOn (entry xs) (Set.Iic (xs.length - 1)) := by
  intro i _ j hj hij
  rcases hij.eq_or_lt with rfl | hlt
  · exact le_rfl
  · have hlength := lt_length_ascending hj hlt
    rw [entry_eq (hlt.trans hlength), entry_eq hlength]
    exact List.pairwise_iff_getElem.mp (pairwise_ascending xs) i j _ _ hlt

theorem strictMonoOn_entry (h : xs.Nodup) : StrictMonoOn (entry xs) (Set.Iic (xs.length - 1)) := by
  intro i hi j hj hlt
  have hle := monotoneOn_entry xs hi hj hlt.le
  have hlength := lt_length_ascending hj hlt
  refine hle.lt_of_ne fun heq ↦ hlt.ne ?_
  rw [entry_eq (hlt.trans hlength), entry_eq hlength] at heq
  exact ((perm_ascending xs).nodup_iff.mpr h).getElem_inj_iff.mp (value_injective heq)

/-! ### Contaminations -/

/-- Contaminations are fractions up to one half. -/
theorem isContamination_iff (c : α) : IsContamination c ↔ 0 < value c ∧ value c ≤ 1 / 2 := by
  rw [IsContamination, ExactScalar.lt_iff, ExactScalar.le_iff, ExactScalar.value_div,
    ExactScalar.value_zero, ExactScalar.value_one, Scalar.two, ExactScalar.value_natCast,
    Nat.cast_ofNat]

theorem le_one_of_isContamination {c : α} (h : IsContamination c) : value c ≤ 1 := by
  have := ((isContamination_iff c).mp h).2
  linarith

/-! ### Quantiles -/

/-- The rank of the `q`-quantile. -/
noncomputable def quantileRank (q : α) (xs : List α) : ℝ := value q * (xs.length - 1 : ℕ)

theorem quantileRank_nonneg (hq : 0 ≤ value q) : 0 ≤ quantileRank q xs :=
  mul_nonneg hq (Nat.cast_nonneg _)

theorem ceil_quantileRank_le (xs : List α) (hq : value q ≤ 1) :
    ⌈quantileRank q xs⌉₊ ≤ xs.length - 1 := by
  rw [Nat.ceil_le, quantileRank]
  exact mul_le_of_le_one_left (Nat.cast_nonneg _) hq

theorem ceil_quantileRank_lt (hq : value q ≤ 1) (hxs : xs ≠ []) :
    ⌈quantileRank q xs⌉₊ < (ascending xs).length := by
  have := ceil_quantileRank_le xs hq
  have := List.length_pos_of_ne_nil hxs
  rw [length_ascending]
  omega

/-- The quantile of some numbers is the interpolation of the ascending numbers at its rank. -/
theorem exists_quantile?_eq (hq : value q ≤ 1) (hxs : xs ≠ []) :
    ∃ offset, quantile? q xs = some offset ∧
      value offset = interpolate (entry xs) (quantileRank q xs) := by
  have hrank : value (q * ((xs.length - 1 : ℕ) : α)) = quantileRank q xs := by
    rw [ExactScalar.value_mul, ExactScalar.value_natCast, quantileRank]
  have hceil := ceil_quantileRank_lt hq hxs
  have hfloor := (Nat.floor_le_ceil (quantileRank q xs)).trans_lt hceil
  let low := (ascending xs)[⌊quantileRank q xs⌋₊]
  let high := (ascending xs)[⌈quantileRank q xs⌉₊]
  refine ⟨low + (high - low) *
    (q * ((xs.length - 1 : ℕ) : α) - (⌊quantileRank q xs⌋₊ : α)), ?_, ?_⟩
  · rw [quantile?, atRank?, ExactScalar.floor_eq, ExactScalar.ceil_eq, hrank,
      List.getElem?_eq_getElem hfloor, List.getElem?_eq_getElem hceil]
    rfl
  · rw [interpolate, entry_eq hfloor, entry_eq hceil, ExactScalar.value_add, ExactScalar.value_mul,
      ExactScalar.value_sub, ExactScalar.value_sub, ExactScalar.value_natCast, hrank]

omit [ExactScalar α] in
theorem quantile?_nil (q : α) : quantile? q [] = none := by
  rw [quantile?, ascending, List.mergeSort_nil, atRank?]
  rfl

variable {offset : α} (h : quantile? q xs = some offset)

include h

omit [ExactScalar α] in
theorem ne_nil_of_quantile? : xs ≠ [] := by
  rintro rfl
  rw [quantile?_nil] at h
  exact absurd h nofun

theorem value_of_quantile? (hq : value q ≤ 1) :
    value offset = interpolate (entry xs) (quantileRank q xs) := by
  obtain ⟨offset', hoffset, hvalue⟩ := exists_quantile?_eq hq (ne_nil_of_quantile? h)
  rw [h] at hoffset
  rw [Option.some.inj hoffset, hvalue]

/-- No entry from the rank on is below the quantile. -/
theorem countP_lt_le (hq : value q ≤ 1) :
    xs.countP (· < offset) ≤ ⌈quantileRank q xs⌉₊ := by
  have htop := ceil_quantileRank_le xs hq
  have hmono := monotoneOn_entry xs
  rw [← (perm_ascending xs).countP_eq]
  refine countP_le_of_getElem fun i hi hrank ↦ ?_
  have hlast : i ≤ xs.length - 1 := by
    rw [length_ascending] at hi
    omega
  rw [decide_eq_false_iff_not, ExactScalar.lt_iff, not_lt, value_of_quantile? h hq, ← entry_eq hi]
  exact (interpolate_le (floor_le_ceil hmono htop)).trans
    (hmono (Set.mem_Iic.mpr htop) (Set.mem_Iic.mpr hlast) hrank)

/-- Where no two entries are equal, all entries before the rank are below the quantile. -/
theorem countP_lt_eq (hq : 0 ≤ value q) (hq' : value q ≤ 1) (hnodup : xs.Nodup) :
    xs.countP (· < offset) = ⌈quantileRank q xs⌉₊ := by
  have htop := ceil_quantileRank_le xs hq'
  refine (countP_lt_le h hq').antisymm ?_
  rw [← (perm_ascending xs).countP_eq]
  refine le_countP_of_getElem ?_ fun i hi hrank ↦ ?_
  · rw [length_ascending]
    omega
  · rw [decide_eq_true_iff, ExactScalar.lt_iff, value_of_quantile? h hq', ← entry_eq hi]
    exact lt_interpolate (strictMonoOn_entry hnodup) (quantileRank_nonneg hq) htop hrank

/-- The quantile lies between two of the entries. -/
theorem exists_le_quantile_le (hq : 0 ≤ value q) (hq' : value q ≤ 1) :
    ∃ low ∈ xs, ∃ high ∈ xs, value low ≤ value offset ∧ value offset ≤ value high := by
  have htop := ceil_quantileRank_le xs hq'
  have hle := floor_le_ceil (monotoneOn_entry xs) htop
  have hceil := ceil_quantileRank_lt hq' (ne_nil_of_quantile? h)
  have hfloor := (Nat.floor_le_ceil (quantileRank q xs)).trans_lt hceil
  rw [value_of_quantile? h hq']
  refine ⟨_, (perm_ascending xs).mem_iff.mp (List.getElem_mem hfloor), _,
    (perm_ascending xs).mem_iff.mp (List.getElem_mem hceil), ?_⟩
  rw [← entry_eq hfloor, ← entry_eq hceil]
  exact ⟨le_interpolate (quantileRank_nonneg hq) hle, interpolate_le hle⟩

omit h in
/-- The quantile does not fall when more of the numbers are to be below it. -/
theorem quantile?_mono {q' offset' : α} (hq : 0 ≤ value q) (hle : value q ≤ value q')
    (hq' : value q' ≤ 1) (h : quantile? q xs = some offset) (h' : quantile? q' xs = some offset') :
    value offset ≤ value offset' := by
  rw [value_of_quantile? h (hle.trans hq'), value_of_quantile? h' hq']
  exact interpolate_mono (monotoneOn_entry xs) (quantileRank_nonneg hq)
    (mul_le_mul_of_nonneg_right hle (Nat.cast_nonneg _)) (ceil_quantileRank_le xs hq')

end Entries

end OutlierScoring
