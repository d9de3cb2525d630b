import OutlierScoring.Proofs.Outcome
import OutlierScoring.Scaler

/-!
# Series as matrices

A series is a matrix with one column, so that the first entry of it that is not finite is found in
that column, and statistics with one mean and one scale map it to another series. With more scales
than one every number becomes a row of as many numbers.
-/

namespace OutlierScoring

variable {α : Type} [Scalar α]

theorem findIdx?_eq_none_of_finite {series : List α}
    (h : ∀ x ∈ series, Scalar.isFinite x = true) :
    series.findIdx? (!Scalar.isFinite ·) = none := by
  rw [List.findIdx?_eq_none_iff]
  intro x hx
  rw [h x hx, Bool.not_true]

namespace Matrix

omit [Scalar α] in
theorem rows_ofSeries (series : List α) :
    (ofSeries series).rows.toList = series.map fun x ↦ #v[x] := rfl

/-- The first entry that is not finite stands in the only column. -/
theorem firstNonFinite?_ofSeries (series : List α) :
    (ofSeries series).firstNonFinite? =
      (series.findIdx? (!Scalar.isFinite ·)).map (·, 0) := by
  rw [firstNonFinite?, rows_ofSeries]
  -- The rows are numbered from the front, so that the first number has to be general.
  suffices h : ∀ start, ((series.map fun x ↦ #v[x]).zipIdx start).findSome? (fun (row, i) ↦
      (row.toList.findIdx? (!Scalar.isFinite ·)).map (i, ·)) =
      (series.findIdx? (!Scalar.isFinite ·)).map (· + start, 0) by
    simpa using h 0
  intro start
  induction series generalizing start with
  | nil => rfl
  | cons x series ih =>
    rw [List.map_cons, List.zipIdx_cons, List.findSome?_cons, List.findIdx?_cons, ih]
    cases hx : Scalar.isFinite x
    · simp [hx]
    · simp [hx, Function.comp_def, Nat.add_left_comm, Nat.add_comm]

theorem ensureFinite_ofSeries (series : List α) :
    (ofSeries series).ensureFinite =
      match series.findIdx? (!Scalar.isFinite ·) with
      | none => .ok ()
      | some row => .error (.nonFiniteValue row 0) := by
  rw [ensureFinite, firstNonFinite?_ofSeries]
  cases series.findIdx? (!Scalar.isFinite ·) <;> rfl

end Matrix

namespace Scaler

theorem commonWidth?_one (n : Nat) : ∃ h, commonWidth? 1 n = some ⟨n, h⟩ := by
  rw [commonWidth?]
  by_cases hn : 1 = n
  · subst hn
    exact ⟨_, dif_pos rfl⟩
  · rw [dif_neg hn]
    exact ⟨_, dif_pos rfl⟩

theorem standardize_eq_ok {m : Matrix α} (mean : Vector α m.width) (scale : Array α) {width : Nat}
    {h : (m.width = width ∨ m.width = 1) ∧ (scale.size = width ∨ scale.size = 1)}
    (hwidth : commonWidth? m.width scale.size = some ⟨width, h⟩) :
    standardize m mean scale = .ok ⟨width, m.rows.map fun row ↦
      (stretch (row - mean) width h.1).zipWith (· / ·) (stretch scale.toVector width h.2)⟩ := by
  obtain ⟨hm, hs⟩ := h
  rw [standardize, hwidth]

/-- Statistics refuse all series for the same reason, or they make of every number a row that does
not depend on the other numbers of its series. -/
theorem transform_ofSeries_cases (s : Scaler α) :
    (∃ failure, ∀ series, s.transform (.ofSeries series) = .error failure) ∨
    ∃ (width : Nat) (row : α → Vector α width), ∀ series,
      s.transform (.ofSeries series) = .ok ⟨width, (series.map row).toArray⟩ := by
  rcases hs : s.statistics with _ | ⟨mean, scale⟩
  · refine .inl ⟨.modelNotTrained, fun series ↦ ?_⟩
    rw [transform, hs]
  by_cases hmean : mean.size = 1
  · obtain ⟨h, hwidth⟩ := commonWidth?_one scale.size
    refine .inr ⟨scale.size, fun x ↦ (stretch (#v[x] - ⟨mean, hmean⟩) scale.size h.1).zipWith
      (· / ·) (stretch scale.toVector scale.size h.2), fun series ↦ ?_⟩
    have htransform : s.transform (.ofSeries series) =
        standardize (.ofSeries series) ⟨mean, hmean⟩ scale := by
      rw [transform, hs]
      exact dif_pos hmean
    rw [htransform, standardize_eq_ok (m := .ofSeries series) ⟨mean, hmean⟩ scale hwidth]
    simp only [Matrix.ofSeries, List.map_toArray, List.map_map]
    rfl
  · refine .inl ⟨.featureCountMismatch mean.size 1, fun series ↦ ?_⟩
    rw [transform, hs]
    exact dif_neg hmean

/-- A number becomes a row of as many numbers as there are scales. -/
theorem exists_standardize_ofSeries (series : List α) (mean : Vector α 1) (scale : Array α) :
    ∃ scaled, standardize (.ofSeries series) mean scale = .ok scaled ∧
      scaled.width = scale.size := by
  obtain ⟨h, hwidth⟩ := commonWidth?_one scale.size
  exact ⟨_, standardize_eq_ok (m := .ofSeries series) mean scale hwidth, rfl⟩

/-- One mean and one scale map a series to another one. -/
theorem standardize_ofSeries (series : List α) (mean scale : α) :
    standardize (.ofSeries series) #v[mean] #[scale] =
      .ok (.ofSeries (series.map fun x ↦ (x - mean) / scale)) := by
  obtain ⟨h, hwidth⟩ := commonWidth?_one 1
  have hrow (x : α) : (stretch (#v[x] - #v[mean]) 1 h.1).zipWith (· / ·)
      (stretch #[scale].toVector 1 h.2) = #v[(x - mean) / scale] := by
    refine Vector.ext fun i hi ↦ ?_
    obtain rfl : i = 0 := by omega
    simp [stretch]
  refine (standardize_eq_ok (m := .ofSeries series) #v[mean] #[scale] hwidth).trans ?_
  simp only [Matrix.ofSeries, List.map_toArray, List.map_map]
  exact congrArg (fun rows : List (Vector α 1) ↦ Except.ok (⟨1, rows.toArray⟩ : Matrix α))
    (List.map_congr_left fun x _ ↦ hrow x)

end Scaler

end OutlierScoring
