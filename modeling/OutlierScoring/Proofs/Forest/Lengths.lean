import Mathlib
import OutlierScoring.Proofs.Forest.Forms
import OutlierScoring.Proofs.Forest.Scores
import OutlierScoring.Proofs.Number.Intervals

/-!
# Bounds of lengths and scores

The length of a way down is not negative, however it is rounded. The expected length of `n` rows is
a difference that could become negative by rounding; but what is taken away is at most two, because
doubling is not rounded, and what it is taken from is at least two (`averagePathLength_isBetween`).
Lengths are added up over all trees, and their sum may be infinite; its sign is known nevertheless,
so that the power of two that makes a score is one of an exponent that is not positive. That is why
scores are between `-1` and `0` (`Forest.scores_isBetween`), and why a quantile of them is finite.
-/

namespace OutlierScoring

variable {α : Type} [Scalar α] [RoundedScalar α]

open OrderedScalar (value)

/-! ### Sums -/

theorem Scalar.sum_nonneg {xs : List α} (h : ∀ x ∈ xs, 0 ≤ x) : 0 ≤ sum xs := by
  induction xs using List.reverseRecOn with
  | nil => exact isBetween_zero.nonneg le_rfl
  | append_singleton xs x ih =>
    rw [sum_concat]
    exact RoundedScalar.add_nonneg (ih fun y hy ↦ h y (List.mem_append_left _ hy))
      (h x (List.mem_append_right _ (List.mem_singleton_self x)))

/-! ### Lengths -/

namespace IsolationTree

section Expected

variable [LawfulFunctions α]

/-- The expected length for three rows and more. -/
theorem isBetween_expected {n : α} (hn : IsBetween 3 (2 ^ 64) n) :
    IsBetween 0 (2 ^ 66)
      (Scalar.two * (Scalar.log (n - 1) + eulerGamma) - Scalar.two * (n - 1) / n) := by
  have htwo : IsExact α 2 := ⟨Scalar.two, value_two α⟩
  have hless : IsBetween 2 (value n) (n - 1) :=
    (RoundedScalar.sub hn.finite RoundedScalar.isFinite_one).isBetween htwo hn.isExact
      (by linarith [hn.low_le, RoundedScalar.value_one (α := α)])
      (by linarith [RoundedScalar.value_one (α := α)])
  -- What it is taken from is at least two.
  obtain ⟨hlog, hlow, hhigh⟩ := LawfulFunctions.log hless.finite hless.low_le
  have hgamma : IsBetween (1 / 2) 1 (eulerGamma : α) :=
    RoundedScalar.eulerGamma.isBetween (isExact_half α) (isExact_one α) (by norm_num) (by norm_num)
  have hsum : IsBetween 1 (2 ^ 65) (Scalar.log (n - 1) + eulerGamma) :=
    (RoundedScalar.add hlog hgamma.finite).isBetween (isExact_one α) (isExact_pow α (by omega))
      (by linarith [hgamma.low_le]) (by linarith [hgamma.le_high, hless.le_high, hn.le_high])
  obtain ⟨hfrom, hfrom_eq⟩ := hsum.two_mul zero_le_one (k := 65) (by omega) le_rfl
  -- What is taken away is at most two.
  obtain ⟨hdouble, hdouble_eq⟩ := hless.two_mul zero_le_two (k := 64) (by omega) hn.le_high
  have hpos : 0 < value n := by linarith [hn.low_le]
  have hratio : IsBetween 0 2 (Scalar.two * (n - 1) / n) := by
    refine (RoundedScalar.div hdouble hn.finite hpos.ne').isBetween (isExact_zero α) htwo ?_ ?_
    · rw [hdouble_eq]
      exact div_nonneg (by linarith [hless.low_le]) hpos.le
    · rw [hdouble_eq, div_le_iff₀ hpos]
      linarith [hless.le_high]
  exact (RoundedScalar.sub hfrom hratio.finite).isBetween (isExact_zero α)
    (isExact_pow α (by omega)) (by linarith [hsum.low_le, hratio.le_high])
    (by linarith [hsum.le_high, hratio.low_le])

/-- The expected length is finite and not negative. -/
theorem averagePathLength_isBetween {n : ℕ} (h : n < UInt64.size) :
    IsBetween 0 (2 ^ 66) (averagePathLength n : α) := by
  match n with
  | 0 | 1 => exact ⟨isBetween_zero.finite, isBetween_zero.low_le,
      isBetween_zero.le_high.trans (by positivity)⟩
  | 2 => exact ⟨isBetween_one.finite, zero_le_one.trans isBetween_one.low_le,
      isBetween_one.le_high.trans (by norm_num)⟩
  | n + 3 =>
    have hthree : IsExact α 3 := by exact_mod_cast isExact_natCast α (n := 3) (by decide)
    have hlow : (3 : ℝ) ≤ (n + 3 : ℕ) := by exact_mod_cast Nat.le_add_left 3 n
    have hhigh : ((n + 3 : ℕ) : ℝ) ≤ 2 ^ 64 := by exact_mod_cast h.le
    exact isBetween_expected ((RoundedScalar.natCast (n + 3)).isBetween hthree
      (isExact_pow α (by omega)) hlow hhigh)

/-- The way of a row does not become shorter on the way down. -/
theorem pathLength?_nonneg {row : List α} {tree : IsolationTree α} (h : tree.HasNumbers)
    {depth length : α} (hdepth : 0 ≤ depth) (hlength : pathLength? row depth tree = some length) :
    0 ≤ length := by
  induction tree generalizing depth with
  | absent =>
    rw [pathLength?] at hlength
    exact Option.some.inj hlength ▸ hdepth
  | node feature threshold size left right hleft hright =>
    by_cases hends : feature = none ∨ left = .absent ∨ right = .absent
    · rw [pathLength?_end row depth threshold size hends] at hlength
      obtain rfl := Option.some.inj hlength
      exact RoundedScalar.add_nonneg hdepth ((averagePathLength_isBetween h.2.2.1).nonneg le_rfl)
    · obtain ⟨j, rfl⟩ := Option.ne_none_iff_exists'.mp fun h ↦ hends (.inl h)
      have hl := isPresent_of_ne_absent fun h ↦ hends (.inr (.inl h))
      have hr := isPresent_of_ne_absent fun h ↦ hends (.inr (.inr h))
      have hdeeper : 0 ≤ depth + 1 :=
        RoundedScalar.add_nonneg hdepth (isBetween_one.nonneg zero_le_one)
      rw [pathLength?_node row depth j threshold size hl hr] at hlength
      obtain ⟨x, -, hlength⟩ := Option.bind_eq_some_iff.mp hlength
      split at hlength
      · exact hleft h.2.2.2.1 hdeeper hlength
      · exact hright h.2.2.2.2 hdeeper hlength

end Expected

end IsolationTree

/-! ### Scores -/

namespace Forest

variable [LawfulFunctions α]

theorem lengths_nonneg {trees : List (IsolationTree α)}
    (hnumbers : ∀ tree ∈ trees, tree.HasNumbers) {row lengths : List α}
    (h : trees.mapM (IsolationTree.pathLength? row 0) = some lengths) :
    ∀ length ∈ lengths, 0 ≤ length := by
  rw [Outcome.mapM_eq_some_iff] at h
  induction h with
  | nil => exact nofun
  | cons hfirst _ ih =>
    rw [List.forall_mem_cons] at hnumbers ⊢
    exact ⟨IsolationTree.pathLength?_nonneg hnumbers.1 (isBetween_zero.nonneg le_rfl) hfirst,
      ih hnumbers.2⟩

theorem meanPathLength?_nonneg {trees : List (IsolationTree α)} (hne : trees ≠ [])
    (hcount : trees.length < UInt64.size) (hnumbers : ∀ tree ∈ trees, tree.HasNumbers)
    {row : List α} {meanLength : α} (h : meanPathLength? trees row = some meanLength) :
    0 ≤ meanLength := by
  obtain ⟨lengths, hlengths, hmean⟩ := Option.bind_eq_some_iff.mp h
  obtain rfl := Option.some.inj hmean
  have hnonneg := lengths_nonneg hnumbers hlengths
  have hone : (1 : ℝ) ≤ trees.length := by exact_mod_cast List.length_pos_of_ne_nil hne
  have hhigh : (trees.length : ℝ) ≤ 2 ^ 64 := by exact_mod_cast hcount.le
  have hcount : IsBetween 1 (2 ^ 64) (trees.length : α) :=
    (RoundedScalar.natCast _).isBetween (isExact_one α) (isExact_pow α (by omega)) hone hhigh
  exact RoundedScalar.div_nonneg (Scalar.sum_nonneg hnonneg) hcount.finite (hcount.pos one_pos)

/-- Scores are negative powers of two. -/
theorem scoreOf_isBetween {sampleSize : ℕ} (h : sampleSize < UInt64.size) {meanLength : α}
    (hmean : 0 ≤ meanLength) : IsBetween (-1) 0 (scoreOf sampleSize meanLength) := by
  rw [scoreOf]
  split
  · rename_i hpos
    have hexponent := RoundedScalar.div_nonpos (RoundedScalar.neg_nonpos hmean)
      (IsolationTree.averagePathLength_isBetween h).finite hpos
    obtain ⟨hfinite, hlow, hhigh⟩ := LawfulFunctions.exp2 hexponent
    have hpower := (IsBetween.mk hfinite hlow hhigh).neg
    rwa [neg_zero] at hpower
  · exact (isBetween_one (α := α)).neg.mono le_rfl (by norm_num)

/-- The scores of a forest whose numbers are finite and whose counts are machine words. -/
theorem scores_isBetween {forest : Forest α} {m : Matrix α} {scores : List α}
    (h : forest.scores m = .ok scores) (hne : forest.trees ≠ [])
    (hcount : forest.trees.length < UInt64.size) (hsize : forest.sampleSize < UInt64.size)
    (hnumbers : ∀ tree ∈ forest.trees, tree.HasNumbers) :
    ∀ score ∈ scores, IsBetween (-1) 0 score := by
  rw [scores_eq] at h
  split at h
  · cases h
  obtain ⟨_, -, h⟩ := Outcome.exists_of_bind_eq_ok h
  intro score hscore
  obtain ⟨row, -, hrow⟩ := Outcome.exists_of_mem_mapM h score hscore
  rw [scoreRow] at hrow
  split at hrow
  · rename_i meanLength hmean
    obtain rfl := Except.ok.inj hrow
    exact scoreOf_isBetween hsize (meanPathLength?_nonneg hne hcount hnumbers hmean)
  · cases hrow

end Forest

/-! ### Quantiles of scores -/

/-- The rank of a quantile. -/
theorem quantileRank_isBetween {q : α} (hq : IsBetween 0 1 q) {count : ℕ}
    (hcount : count ≤ UInt64.size) : IsBetween 0 (2 ^ 64) (q * ((count - 1 : ℕ) : α)) := by
  have hlast : IsBetween 0 (2 ^ 64) ((count - 1 : ℕ) : α) :=
    isBetween_natCast ((Nat.sub_le _ _).trans hcount)
  refine (RoundedScalar.mul hq.finite hlast.finite).isBetween (isExact_zero α)
    (isExact_pow α (by omega)) (mul_nonneg hq.low_le hlast.low_le) ?_
  calc value q * value ((count - 1 : ℕ) : α) ≤ 1 * value ((count - 1 : ℕ) : α) :=
        mul_le_mul_of_nonneg_right hq.le_high hlast.low_le
    _ ≤ 2 ^ 64 := by rw [one_mul]; exact hlast.le_high

/-- How far a rank is above the position before it. -/
theorem rankPart_isBetween {rank : α} (hrank : IsBetween 0 (2 ^ 64) rank)
    (hposition : Scalar.floor rank ≤ UInt64.size) :
    IsBetween (-2 ^ 64) (2 ^ 64) (rank - (Scalar.floor rank : α)) := by
  have hpow := isExact_pow α (k := 64) (by omega)
  have hposition : IsBetween 0 (2 ^ 64) (Scalar.floor rank : α) := isBetween_natCast hposition
  exact (RoundedScalar.sub hrank.finite hposition.finite).isBetween hpow.neg hpow
    (by linarith [hrank.low_le, hposition.le_high])
    (by linarith [hrank.le_high, hposition.low_le])

/-- What is interpolated between scores is finite, whatever the rank. -/
theorem atRank?_finite {xs : List α} (hcount : xs.length ≤ UInt64.size)
    (hxs : ∀ x ∈ xs, IsBetween (-1) 0 x) {rank : α} (hrank : IsBetween 0 (2 ^ 64) rank) {y : α}
    (h : atRank? xs rank = some y) : Scalar.isFinite y = true := by
  obtain ⟨low, hlow, h⟩ := Option.bind_eq_some_iff.mp h
  obtain ⟨high, hhigh, h⟩ := Option.bind_eq_some_iff.mp h
  obtain rfl := Option.some.inj h
  have hone := isExact_one α
  have hpow := isExact_pow α (k := 64) (by omega)
  have hl := hxs low (List.mem_of_getElem? hlow)
  have hh := hxs high (List.mem_of_getElem? hhigh)
  have hrise : IsBetween (-1) 1 (high - low) :=
    (RoundedScalar.sub hh.finite hl.finite).isBetween hone.neg hone
      (by linarith [hh.low_le, hl.le_high]) (by linarith [hh.le_high, hl.low_le])
  have hpart := rankPart_isBetween hrank ((List.getElem?_eq_some_iff.mp hlow).1.le.trans hcount)
  have hproduct : |value (high - low) * value (rank - (Scalar.floor rank : α))| ≤ 1 * 2 ^ 64 := by
    rw [abs_mul]
    exact mul_le_mul (abs_le.mpr ⟨hrise.low_le, hrise.le_high⟩)
      (abs_le.mpr ⟨hpart.low_le, hpart.le_high⟩) (abs_nonneg _) zero_le_one
  rw [one_mul, abs_le] at hproduct
  have hshare : IsBetween (-2 ^ 64) (2 ^ 64) ((high - low) * (rank - (Scalar.floor rank : α))) :=
    (RoundedScalar.mul hrise.finite hpart.finite).isBetween hpow.neg hpow hproduct.1 hproduct.2
  have hsum : IsBetween (-2 ^ 65) (2 ^ 65)
      (low + (high - low) * (rank - (Scalar.floor rank : α))) :=
    (RoundedScalar.add hl.finite hshare.finite).isBetween (isExact_pow α (by omega)).neg
      (isExact_pow α (by omega)) (by linarith [hl.low_le, hshare.low_le])
      (by linarith [hl.le_high, hshare.le_high])
  exact hsum.finite

theorem quantile?_finite {q : α} (hq : IsBetween 0 1 q) {xs : List α}
    (hcount : xs.length ≤ UInt64.size) (hxs : ∀ x ∈ xs, IsBetween (-1) 0 x) {y : α}
    (h : quantile? q xs = some y) : Scalar.isFinite y = true := by
  have hperm : (ascending xs).Perm xs := List.mergeSort_perm xs _
  exact atRank?_finite (hperm.length_eq.trans_le hcount) (fun x hx ↦ hxs x (hperm.mem_iff.mp hx))
    (quantileRank_isBetween hq hcount) h

end OutlierScoring
