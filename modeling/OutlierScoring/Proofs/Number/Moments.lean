import Mathlib
import OutlierScoring.Proofs.Number.Exact
import OutlierScoring.Scaler

/-!
# Means and variances of real numbers

What scalers compute, where nothing is rounded. A column is added up in blocks or from the left, and
its deviation is found in one pass that corrects the mean with every number; the result is the mean
of the column (`columnMean_real`) and the square root of its variance (`deviation_real`), both of
which are defined here as they are written in textbooks, in two passes.

The pass is followed number by number. What one more number does to a sum of squares is known from
the sum of the squares of the distances from any point at all (`sum_sq_sub`): it is least at the
mean, and grows with the square of the distance from it.
-/

namespace OutlierScoring

/-! ### Moments -/

/-- The mean of a list of real numbers; `0` if there are none. -/
noncomputable def populationMean (xs : List ℝ) : ℝ := xs.sum / xs.length

/-- The mean of the squares of the distances from the mean. -/
noncomputable def populationVariance (xs : List ℝ) : ℝ :=
  populationMean (xs.map fun x ↦ (x - populationMean xs) ^ 2)

/-- Where there are numbers, their sum is the mean as often as there are numbers; where there are
none, both are `0`. -/
theorem sum_eq_length_mul_mean (xs : List ℝ) : xs.sum = xs.length * populationMean xs := by
  rcases eq_or_ne xs [] with rfl | hne
  · simp
  · have hlength : (xs.length : ℝ) ≠ 0 := by simpa using hne
    rw [populationMean, mul_div_cancel₀ _ hlength]

theorem sum_map_affine (a b : ℝ) (xs : List ℝ) :
    (xs.map fun x ↦ a * x + b).sum = a * xs.sum + xs.length * b := by
  rw [List.sum_map_add, List.sum_map_mul_left, List.map_id', List.map_const', List.sum_replicate,
    nsmul_eq_mul]

/-- The sum of the squares of the distances from a point grows with the distance of the point from
the mean. -/
theorem sum_sq_sub (xs : List ℝ) (c : ℝ) :
    (xs.map fun x ↦ (x - c) ^ 2).sum =
      (xs.map fun x ↦ (x - populationMean xs) ^ 2).sum +
        xs.length * (populationMean xs - c) ^ 2 := by
  let mean := populationMean xs
  have hsquare (x : ℝ) : (x - c) ^ 2 =
      (x - mean) ^ 2 + (2 * (mean - c) * x + ((mean - c) ^ 2 - 2 * (mean - c) * mean)) := by
    ring
  rw [List.map_congr_left fun x _ ↦ hsquare x, List.sum_map_add, sum_map_affine,
    sum_eq_length_mul_mean xs]
  ring

/-- One more number moves the mean by its share of the distance. -/
theorem populationMean_concat (xs : List ℝ) (x : ℝ) :
    populationMean (xs ++ [x]) =
      populationMean xs + (x - populationMean xs) / ((xs.length + 1 : ℕ) : ℝ) := by
  have hlength : ((xs.length : ℝ) + 1) ≠ 0 := by positivity
  rw [populationMean, List.sum_append, List.sum_singleton, List.length_append,
    List.length_singleton, sum_eq_length_mul_mean xs]
  push_cast
  field_simp
  ring

/-- One more number adds the product of its distances from the old mean and from the new one. -/
theorem sum_squares_concat (xs : List ℝ) (x : ℝ) :
    ((xs ++ [x]).map fun y ↦ (y - populationMean (xs ++ [x])) ^ 2).sum =
      (x - populationMean (xs ++ [x])) * (x - populationMean xs) +
        (xs.map fun y ↦ (y - populationMean xs) ^ 2).sum := by
  have hlength : ((xs.length : ℝ) + 1) ≠ 0 := by positivity
  rw [List.map_append, List.sum_append, List.map_singleton, List.sum_singleton,
    sum_sq_sub xs (populationMean (xs ++ [x])), populationMean_concat]
  push_cast
  field_simp
  ring

/-! ### Change of units -/

/-- A change of units changes the mean in the same way. -/
theorem populationMean_map_affine (a b : ℝ) {xs : List ℝ} (h : xs ≠ []) :
    populationMean (xs.map fun x ↦ a * x + b) = a * populationMean xs + b := by
  have hlength : (xs.length : ℝ) ≠ 0 := by simpa using h
  rw [populationMean, populationMean, sum_map_affine, List.length_map]
  field_simp

/-- The variance does not depend on where the zero is. -/
theorem populationVariance_map_affine (a b : ℝ) (xs : List ℝ) :
    populationVariance (xs.map fun x ↦ a * x + b) = a ^ 2 * populationVariance xs := by
  rcases eq_or_ne xs [] with rfl | hne
  · simp [populationVariance, populationMean]
  have hsquares : (xs.map fun x ↦ a * x + b).map
        (fun y ↦ (y - (a * populationMean xs + b)) ^ 2) =
      (xs.map fun x ↦ (x - populationMean xs) ^ 2).map fun y ↦ a ^ 2 * y + 0 := by
    rw [List.map_map, List.map_map]
    refine List.map_congr_left fun x _ ↦ ?_
    simp only [Function.comp_apply]
    ring
  have hne' : (xs.map fun x ↦ (x - populationMean xs) ^ 2) ≠ [] := by simpa using hne
  rw [populationVariance, populationMean_map_affine a b hne, hsquares,
    populationMean_map_affine (a ^ 2) 0 hne', add_zero, populationVariance]

/-! ### The computations -/

/-- Blocks add up to the same sum. -/
theorem sumBlocks_real (p₀ p₁ p₂ p₃ p₄ p₅ p₆ p₇ : ℝ) (xs : List ℝ) :
    sumBlocks p₀ p₁ p₂ p₃ p₄ p₅ p₆ p₇ xs =
      p₀ + p₁ + p₂ + p₃ + p₄ + p₅ + p₆ + p₇ + xs.sum := by
  fun_induction sumBlocks p₀ p₁ p₂ p₃ p₄ p₅ p₆ p₇ xs with
  | case1 p₀ p₁ p₂ p₃ p₄ p₅ p₆ p₇ x₀ x₁ x₂ x₃ x₄ x₅ x₆ x₇ rest ih =>
    rw [ih]
    simp only [List.sum_cons]
    ring
  | case2 p₀ p₁ p₂ p₃ p₄ p₅ p₆ p₇ rest _ =>
    have hfold (start : ℝ) : rest.foldl (· + ·) start = start + rest.sum := by
      have hstart : rest.foldl (· + ·) (start + 0) = start + rest.foldl (· + ·) 0 :=
        List.foldl_assoc
      rwa [add_zero, ← List.sum_eq_foldl] at hstart
    refine (hfold _).trans ?_
    ring

theorem columnMean_real (m : Matrix ℝ) (j : Fin m.width) :
    columnMean m j = populationMean (m.column j) := by
  have htotal : (if m.width = 1 then sumBlocks 0 0 0 0 0 0 0 0 (m.column j)
      else Scalar.sum (m.column j)) = (m.column j).sum := by
    split
    · rw [sumBlocks_real]
      ring
    · exact Scalar.sum_real _
  exact congrArg (· / ((m.column j).length : ℝ)) htotal

/-- The numbers seen so far are known by their mean and their squares. -/
theorem Spread.of_real (xs : List ℝ) :
    Spread.of xs = ⟨xs.length, populationMean xs,
      (xs.map fun x ↦ (x - populationMean xs) ^ 2).sum⟩ := by
  induction xs using List.reverseRecOn with
  | nil =>
    have hmean : populationMean [] = 0 := by simp [populationMean]
    rw [hmean]
    rfl
  | append_singleton xs x ih =>
    have hpush : Spread.of (xs ++ [x]) = (Spread.of xs).push x := List.foldl_concat push empty x xs
    rw [hpush, ih, sum_squares_concat, populationMean_concat, List.length_append]
    rfl

/-- One pass is enough for the deviation. -/
theorem deviation_real (xs : List ℝ) : deviation xs = √(populationVariance xs) := by
  have hvariance : populationVariance xs =
      (xs.map fun x ↦ (x - populationMean xs) ^ 2).sum / xs.length :=
    congrArg (fun n : ℕ ↦ (xs.map fun x ↦ (x - populationMean xs) ^ 2).sum / (n : ℝ))
      (List.length_map _)
  rw [deviation, Spread.of_real, hvariance]
  rfl

end OutlierScoring
