import Mathlib
import OutlierScoring.Proofs.Number.Moments
import OutlierScoring.Proofs.Scaler.Learning

/-!
# The law of standardization

A scaler that has one mean and one scale for each column maps a matrix cell by cell, and so column
by column (`column_standardized`): every column goes through a change of units of its own. What
becomes of it is known from its mean and its variance alone. Subtracting the mean leaves a mean of
`0`; dividing by the deviation leaves a variance of `1`, and dividing by `1` leaves the variance as
it is (`isStandardized_map`).
-/

namespace OutlierScoring

namespace Scaler

section Columns

variable {α : Type} [Scalar α]

/-! ### Column by column -/

theorem column_standardized (m : Matrix α) (mean scale : Vector α m.width) (j : Fin m.width) :
    Matrix.column (standardized m mean scale) j =
      (m.column j).map fun x ↦ (x - mean.get j) / scale.get j := by
  unfold Matrix.column standardized
  rw [Array.toList_map, List.map_map, List.map_map]
  refine List.map_congr_left fun row _ ↦ ?_
  simp [Vector.get_eq_getElem]

/-- What a scaler that keeps all columns makes of a matrix with rows. -/
theorem fitTransform_unitScale {s : Scaler α} (hpolicy : s.policy = .unitScale) {m : Matrix α}
    (hheight : 0 < m.height) (names : List String) {mean scale : Vector α m.width}
    (hmean : mean = Vector.ofFn (columnMean m))
    (hscale : scale = Vector.ofFn fun j ↦ keptScale (m.column j)) :
    s.fitTransform m names =
      (.ok (standardized m mean scale), ⟨.unitScale, some ⟨mean.toArray, scale.toArray⟩⟩) := by
  obtain ⟨policy, statistics⟩ := s
  obtain rfl : policy = .unitScale := hpolicy
  obtain rfl : mean = columnMeans m := hmean
  obtain rfl : scale = keptScales m := hscale
  exact fitTransform_of_isLearnable ⟨hheight, nofun⟩

end Columns

/-! ### Real numbers -/

/-- What standardization by a mean and a scale makes of a column. -/
structure IsStandardized (mean scale : ℝ) (before after : List ℝ) : Prop where
  mean_eq_zero : populationMean after = 0
  variance_eq_one : Scalar.epsilon ≤ √(populationVariance before) → populationVariance after = 1
  /-- A column that is as good as constant is only moved. -/
  variance_eq : √(populationVariance before) < Scalar.epsilon →
    populationVariance after = populationVariance before
  recovered : after.map (fun y ↦ y * scale + mean) = before

theorem epsilon_pos : (0 : ℝ) < Scalar.epsilon := by
  have hbit : (0 : ℝ) < Binary64.hiddenBit := by exact_mod_cast Nat.two_pow_pos 52
  exact one_div_pos.mpr hbit

theorem epsilon_le_one : (Scalar.epsilon : ℝ) ≤ 1 := by
  have hbit : (1 : ℝ) ≤ Binary64.hiddenBit := by exact_mod_cast Nat.one_le_two_pow (n := 52)
  exact div_le_one_of_le₀ hbit (zero_le_one.trans hbit)

theorem keptScale_of_le {xs : List ℝ} (h : Scalar.epsilon ≤ √(populationVariance xs)) :
    keptScale xs = √(populationVariance xs) := by
  rw [keptScale, deviation_real]
  exact if_neg (not_lt.mpr h)

theorem keptScale_of_lt {xs : List ℝ} (h : √(populationVariance xs) < Scalar.epsilon) :
    keptScale xs = 1 := by
  rw [keptScale, deviation_real]
  exact if_pos h

theorem keptScale_ne_zero (xs : List ℝ) : keptScale xs ≠ 0 := by
  rcases le_or_gt Scalar.epsilon √(populationVariance xs) with hle | hlt
  · rw [keptScale_of_le hle]
    exact (epsilon_pos.trans_le hle).ne'
  · rw [keptScale_of_lt hlt]
    exact one_ne_zero

/-- Standardization is a change of units. -/
theorem sub_div_eq_affine (x mean scale : ℝ) :
    (x - mean) / scale = scale⁻¹ * x + -(scale⁻¹ * mean) := by
  ring

theorem isStandardized_map {xs : List ℝ} (hne : xs ≠ []) :
    IsStandardized (populationMean xs) (keptScale xs) xs
      (xs.map fun x ↦ (x - populationMean xs) / keptScale xs) := by
  have hvariance : populationVariance (xs.map fun x ↦ (x - populationMean xs) / keptScale xs) =
      (keptScale xs)⁻¹ ^ 2 * populationVariance xs := by
    simp only [sub_div_eq_affine]
    rw [populationVariance_map_affine]
  constructor
  · simp only [sub_div_eq_affine]
    rw [populationMean_map_affine _ _ hne, add_neg_cancel]
  · intro hle
    have hpos : 0 < populationVariance xs := Real.sqrt_pos.mp (epsilon_pos.trans_le hle)
    rw [hvariance, keptScale_of_le hle, inv_pow, Real.sq_sqrt hpos.le, inv_mul_cancel₀ hpos.ne']
  · intro hlt
    rw [hvariance, keptScale_of_lt hlt, inv_one, one_pow, one_mul]
  · have hscale := keptScale_ne_zero xs
    rw [List.map_map]
    refine List.map_id'' (fun x ↦ ?_) xs
    rw [Function.comp_apply, div_mul_cancel₀ _ hscale, sub_add_cancel]

/-- Where nothing is rounded, a scaler that keeps all columns leaves each of them with a mean of
`0`, and with a variance of `1` unless it is as good as constant. What was standardized can be
recovered, and is standardized again to the same matrix. The one pass in which deviations are found
comes to what they are by definition. -/
theorem fitTransform_standardizes {s : Scaler ℝ} (hpolicy : s.policy = .unitScale) {m : Matrix ℝ}
    (hheight : 0 < m.height) (names : List String) :
    (∃ (rows : Array (Vector ℝ m.width)) (mean scale : Vector ℝ m.width),
      rows.size = m.height ∧
      s.fitTransform m names =
        (.ok ⟨m.width, rows⟩, ⟨.unitScale, some ⟨mean.toArray, scale.toArray⟩⟩) ∧
      (s.fitTransform m names).2.transform m = .ok ⟨m.width, rows⟩ ∧
      ∀ j : Fin m.width,
        IsStandardized (mean.get j) (scale.get j) (m.column j)
          (Matrix.column ⟨m.width, rows⟩ j)) ∧
    ∀ xs : List ℝ, deviation xs = √(populationVariance xs) := by
  obtain ⟨mean, hmean⟩ : ∃ mean, mean = Vector.ofFn (columnMean m) := ⟨_, rfl⟩
  obtain ⟨scale, hscale⟩ : ∃ scale, scale = Vector.ofFn fun j ↦ keptScale (m.column j) := ⟨_, rfl⟩
  have hfit := fitTransform_unitScale hpolicy hheight names hmean hscale
  refine ⟨⟨(standardized m mean scale).rows, mean, scale, Array.size_map, hfit, ?_, fun j ↦ ?_⟩,
    deviation_real⟩
  · rw [hfit]
    exact transform_toArray .unitScale m mean scale
  · have hne : m.column j ≠ [] := List.ne_nil_of_length_pos (m.column_length j ▸ hheight)
    have hmeanAt : mean.get j = populationMean (m.column j) := by
      rw [← columnMean_real, hmean]
      exact Vector.getElem_ofFn j.isLt
    have hscaleAt : scale.get j = keptScale (m.column j) := by
      rw [hscale]
      exact Vector.getElem_ofFn j.isLt
    have hcolumn := column_standardized m mean scale j
    rw [hmeanAt, hscaleAt] at hcolumn ⊢
    exact hcolumn ▸ isStandardized_map hne

/-- The variance of `0`, `2` and `4` is large enough to be divided by. -/
theorem fitTransform_standardizes_three : ∃ (rows : Array (Vector ℝ 1)) (scaler : Scaler ℝ),
    rows.size = 3 ∧
    (new .unitScale).fitTransform (.ofSeries [(0 : ℝ), 2, 4]) ["value"] =
      (.ok ⟨1, rows⟩, scaler) ∧
    populationMean (Matrix.column ⟨1, rows⟩ 0) = 0 ∧
    populationVariance (Matrix.column ⟨1, rows⟩ 0) = 1 := by
  have hheight : 0 < (Matrix.ofSeries [(0 : ℝ), 2, 4]).height := by decide
  obtain ⟨⟨rows, mean, scale, hsize, hfit, -, hcolumns⟩, -⟩ :=
    fitTransform_standardizes (s := new .unitScale) rfl hheight ["value"]
  have hcolumn : IsStandardized (mean.get (0 : Fin 1)) (scale.get (0 : Fin 1)) [0, 2, 4]
      (Matrix.column ⟨1, rows⟩ 0) := hcolumns (0 : Fin 1)
  have hvariance : 1 ≤ populationVariance [0, 2, 4] := by
    norm_num [populationVariance, populationMean]
  have hdeviation := epsilon_le_one.trans (Real.one_le_sqrt.mpr hvariance)
  exact ⟨rows, _, hsize, hfit, hcolumn.mean_eq_zero, hcolumn.variance_eq_one hdeviation⟩

end Scaler

end OutlierScoring
