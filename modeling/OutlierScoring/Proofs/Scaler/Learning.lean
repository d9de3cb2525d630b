import Mathlib.Data.List.FinRange
import OutlierScoring.Proofs.Series

/-!
# What scalers learn

A scaler learns from a matrix that has rows and no column to refuse (`Matrix.IsLearnable`). What it
learns then is settled by the matrix alone: the policy says which matrices are refused, and it has
no part in the means and scales of the others (`Scaler.fitTransform_of_isLearnable`). A matrix with
rows is refused for the first column that does not vary (`Scaler.learn_eq_error_iff`).

With a mean and a scale for every column, a scaler maps a matrix cell by cell
(`Scaler.standardize_toArray`).
-/

namespace OutlierScoring

variable {α : Type} [Scalar α]

/-- The column of a matrix does not vary. -/
def Matrix.IsFlat (m : Matrix α) (j : Fin m.width) : Prop :=
  deviation (m.column j) < Scalar.epsilon

/-- There are rows to learn from, and no column that is to be refused. -/
def Matrix.IsLearnable (m : Matrix α) (policy : ZeroVariance) : Prop :=
  0 < m.height ∧ (policy = .reject → ∀ j, ¬m.IsFlat j)

namespace Scaler

/-! ### With a mean and a scale for every column -/

/-- The matrix with every cell `x` replaced by `(x - mean) / scale`, where every column has a mean
and a scale of its own. -/
def standardized (m : Matrix α) (mean scale : Vector α m.width) : Matrix α :=
  ⟨m.width, m.rows.map fun row ↦ (row - mean).zipWith (· / ·) scale⟩

@[simp] theorem width_standardized (m : Matrix α) (mean scale : Vector α m.width) :
    (standardized m mean scale).width = m.width := rfl

@[simp] theorem height_standardized (m : Matrix α) (mean scale : Vector α m.width) :
    (standardized m mean scale).height = m.height := Array.size_map

omit [Scalar α] in
/-- A row that is as wide as it should be is left as it is. -/
theorem getElem_stretch {n w : Nat} (row : Vector α n) (h : n = w ∨ n = 1) (hwidth : n = w)
    {i : Nat} (hi : i < w) : (stretch row w h)[i] = row[i] := by
  rw [stretch, Vector.getElem_ofFn]
  split
  · rename_i hone
    obtain rfl : i = 0 := by omega
    rfl
  · rfl

/-- With a mean and a scale for every column, nothing is repeated. -/
theorem standardize_toArray (m : Matrix α) (mean scale : Vector α m.width) :
    standardize m mean scale.toArray = .ok (standardized m mean scale) := by
  have hwidth : commonWidth? m.width scale.toArray.size =
      some ⟨m.width, .inl rfl, .inl scale.size_toArray⟩ := dif_pos scale.size_toArray.symm
  rw [standardize_eq_ok mean scale.toArray hwidth]
  have hrow (row : Vector α m.width) :
      (stretch (row - mean) m.width (.inl rfl)).zipWith (· / ·)
          (stretch scale.toArray.toVector m.width (.inl scale.size_toArray)) =
        (row - mean).zipWith (· / ·) scale := by
    refine Vector.ext fun i hi ↦ ?_
    rw [Vector.getElem_zipWith, Vector.getElem_zipWith, getElem_stretch _ _ rfl hi,
      getElem_stretch _ _ scale.size_toArray hi]
    rfl
  simp only [hrow]
  rfl

theorem transform_toArray (policy : ZeroVariance) (m : Matrix α) (mean scale : Vector α m.width) :
    (⟨policy, some ⟨mean.toArray, scale.toArray⟩⟩ : Scaler α).transform m =
      .ok (standardized m mean scale) := by
  rw [transform]
  exact (dif_pos mean.size_toArray).trans (standardize_toArray m mean scale)

/-- Standardizing keeps the number of rows. -/
theorem height_of_transform {s : Scaler α} {m scaled : Matrix α}
    (h : s.transform m = .ok scaled) : scaled.height = m.height := by
  rw [transform] at h
  split at h
  · cases h
  · split at h
    · rw [standardize] at h
      split at h
      · cases h
      · obtain rfl := Except.ok.inj h
        exact Array.size_map
    · cases h

/-! ### Columns -/

variable {policy : ZeroVariance} {m : Matrix α} {names : List String}

/-- The scale of a column that is kept whether it varies or not. -/
def keptScale (xs : List α) : α := if deviation xs < Scalar.epsilon then 1 else deviation xs

theorem columnScale_eq_error_iff {j : Fin m.width} {failure : Failure α} :
    columnScale policy m names j = .error failure ↔
      policy = .reject ∧ m.IsFlat j ∧ failure = .degenerateFeature j (columnName names j) := by
  simp only [columnScale, Matrix.IsFlat]
  cases policy with
  | unitScale => split <;> simp
  | reject =>
    split
    · rename_i hflat
      simp [hflat, eq_comm]
    · rename_i hflat
      simp [hflat]

/-- A column that is not refused has the same scale under every policy. -/
theorem columnScale_of_not_flat {j : Fin m.width} (h : policy = .reject → ¬m.IsFlat j) :
    columnScale policy m names j = .ok (keptScale (m.column j)) := by
  simp only [columnScale, keptScale]
  split
  · rename_i hflat
    cases policy with
    | unitScale => rfl
    | reject => exact absurd hflat (h rfl)
  · rfl

/-! ### Matrices -/

/-- The mean of every column. -/
def columnMeans (m : Matrix α) : Vector α m.width := Vector.ofFn (columnMean m)

/-- The scale of every column, all of them being kept. -/
def keptScales (m : Matrix α) : Vector α m.width := Vector.ofFn fun j ↦ keptScale (m.column j)

theorem learn_of_isLearnable (h : m.IsLearnable policy) :
    learn policy m names = .ok ⟨(columnMeans m).toArray, (keptScales m).toArray⟩ := by
  obtain ⟨hheight, hkept⟩ := h
  have hscales : (List.finRange m.width).mapM (columnScale policy m names) =
      .ok (keptScales m).toList := by
    rw [keptScales, Vector.toList_ofFn, List.ofFn_eq_map, Outcome.mapM_eq_ok_iff,
      List.forall₂_map_right_iff, List.forall₂_same]
    exact fun j _ ↦ columnScale_of_not_flat fun hreject ↦ hkept hreject j
  rw [learn, if_neg (Nat.ne_of_gt hheight), hscales]
  rfl

/-- Nothing but the first column that does not vary keeps a scaler from learning from rows. -/
theorem learn_eq_error_iff (hheight : 0 < m.height) {failure : Failure α} :
    learn policy m names = .error failure ↔ ∃ j, policy = .reject ∧ m.IsFlat j ∧
      (∀ k < j, ¬m.IsFlat k) ∧ failure = .degenerateFeature j (columnName names j) := by
  have hlearn : learn policy m names = .error failure ↔
      (List.finRange m.width).mapM (columnScale policy m names) = .error failure := by
    rw [learn, if_neg (Nat.ne_of_gt hheight)]
    rcases (List.finRange m.width).mapM (columnScale policy m names) with failure' | scale
    · simp only [bind, Except.bind, Except.error.injEq]
    · simp only [bind, Except.bind, pure, Except.pure, reduceCtorEq]
  rw [hlearn]
  constructor
  · intro h
    obtain ⟨i, hi, hfail, hbefore⟩ := Outcome.exists_first_of_mapM_eq_error h
    obtain ⟨hpolicy, hflat, rfl⟩ := columnScale_eq_error_iff.mp hfail
    refine ⟨_, hpolicy, hflat, fun k hk hflat' ↦ ?_, rfl⟩
    have hki : k.val < i := by simpa using Fin.lt_def.mp hk
    obtain ⟨scale, hscale⟩ := hbefore k hki
    rw [List.getElem_finRange] at hscale
    cases hscale.symm.trans (columnScale_eq_error_iff.mpr ⟨hpolicy, hflat', rfl⟩)
  · rintro ⟨j, hpolicy, hflat, hfirst, rfl⟩
    refine Outcome.mapM_eq_error_of_first (i := j) (by simp) ?_ fun k hk ↦ ?_
    · rw [List.getElem_finRange]
      exact columnScale_eq_error_iff.mpr ⟨hpolicy, hflat, rfl⟩
    · rw [List.getElem_finRange]
      rcases hscale : columnScale policy m names ⟨k, lt_trans hk j.isLt⟩ with failure | scale
      · exact absurd (columnScale_eq_error_iff.mp hscale).2.1 (hfirst _ hk)
      · exact ⟨scale, hscale⟩

theorem isLearnable_of_learn {statistics : Statistics α}
    (h : learn policy m names = .ok statistics) : m.IsLearnable policy := by
  rw [learn] at h
  split at h
  · cases h
  · rename_i hheight
    obtain ⟨scale, hscale, -⟩ := Outcome.exists_of_bind_eq_ok h
    refine ⟨Nat.pos_of_ne_zero hheight, fun hpolicy j hflat ↦ ?_⟩
    obtain ⟨x, hx⟩ := Outcome.forall_of_mapM_eq_ok hscale j (List.mem_finRange j)
    cases hx.symm.trans (columnScale_eq_error_iff.mpr ⟨hpolicy, hflat, rfl⟩)

/-! ### Fits -/

variable {s : Scaler α}

/-- A scaler that can learn from a matrix forgets what it knew before. -/
theorem fitTransform_of_isLearnable (h : m.IsLearnable s.policy) :
    s.fitTransform m names = (.ok (standardized m (columnMeans m) (keptScales m)),
      ⟨s.policy, some ⟨(columnMeans m).toArray, (keptScales m).toArray⟩⟩) := by
  rw [fitTransform, learn_of_isLearnable h]
  exact congrArg (·, _) (transform_toArray s.policy m (columnMeans m) (keptScales m))

/-- A scaler that cannot learn from a matrix fails with what kept it from learning, and stays as it
is. -/
theorem fitTransform_of_learn_eq_error {failure : Failure α}
    (h : learn s.policy m names = .error failure) :
    s.fitTransform m names = (.error failure, s) := by
  rw [fitTransform, h]

theorem isLearnable_of_fitTransform {scaled : Matrix α}
    (h : (s.fitTransform m names).1 = .ok scaled) : m.IsLearnable s.policy := by
  rcases hlearn : learn s.policy m names with failure | statistics
  · rw [fitTransform_of_learn_eq_error hlearn] at h
    cases h
  · exact isLearnable_of_learn hlearn

/-- There is nothing to learn from a matrix without rows. -/
theorem height_pos_of_fitTransform {scaled : Matrix α}
    (h : (s.fitTransform m names).1 = .ok scaled) : 0 < m.height :=
  (isLearnable_of_fitTransform h).1

/-- A matrix that was learned from keeps its width, and the scaler standardizes it again to the same
matrix. -/
theorem fitTransform_eq_ok {scaled : Matrix α}
    (h : ((new policy).fitTransform m names).1 = .ok scaled) :
    ∃ statistics, ((new policy).fitTransform m names).2 = ⟨policy, some statistics⟩ ∧
      statistics.mean.size = m.width ∧ statistics.scale.size = m.width ∧
      scaled.width = m.width ∧ (⟨policy, some statistics⟩ : Scaler α).transform m = .ok scaled := by
  have hfit : (new policy).fitTransform m names = _ :=
    fitTransform_of_isLearnable (isLearnable_of_fitTransform h)
  rw [hfit] at h ⊢
  obtain rfl := Except.ok.inj h
  exact ⟨_, rfl, Vector.size_toArray _, Vector.size_toArray _, rfl,
    transform_toArray policy m (columnMeans m) (keptScales m)⟩

theorem height_of_fitTransform {scaled : Matrix α}
    (h : ((new policy).fitTransform m names).1 = .ok scaled) : scaled.height = m.height := by
  obtain ⟨statistics, -, -, -, -, htransform⟩ := fitTransform_eq_ok h
  exact height_of_transform htransform

/-- Whatever could be learned from a matrix standardizes it. -/
theorem exists_fitTransform_of_learn {statistics : Statistics α}
    (h : learn policy m names = .ok statistics) :
    ∃ scaled, ((new policy).fitTransform m names).1 = .ok scaled :=
  ⟨_, congrArg Prod.fst (fitTransform_of_isLearnable (s := new policy) (isLearnable_of_learn h))⟩

/-- Columns that do not vary are no obstacle where they are kept under the scale `1`. -/
theorem exists_fitTransform_eq_ok (hheight : 0 < m.height) (names : List String) :
    ∃ scaled, ((new .unitScale).fitTransform m names).1 = .ok scaled :=
  ⟨_, congrArg Prod.fst (fitTransform_of_isLearnable (s := new .unitScale) ⟨hheight, nofun⟩)⟩

end Scaler

end OutlierScoring
