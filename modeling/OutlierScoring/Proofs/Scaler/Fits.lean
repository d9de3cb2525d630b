import Mathlib
import OutlierScoring.Proofs.Number.Arithmetic
import OutlierScoring.Proofs.Standardization

/-!
# Fits, all or nothing

A scaler may be fitted again and again, to matrices of any widths. Each fit either succeeds, and
then nothing is left of what the scaler knew before, or it fails, and then all of it is left. So a
scaler knows what the last matrix taught it that it could learn from (`Scaler.fits_cases`).

What is learned can be relied on (`Scaler.fitTransform_all_or_nothing`): there is a mean and a scale
for each column, no scale is zero, and every matrix of that width is standardized from then on.
Zeros are excluded in the sense of the numbers that floats stand for, so that neither of the two
zeros of floats is a scale.
-/

namespace OutlierScoring

variable {α : Type} [Scalar α]

namespace Scaler

/-! ### Scales -/

section Scales

variable [RoundedScalar α]

open OrderedScalar (value)

theorem value_epsilon :
    Scalar.isFinite (Scalar.epsilon : α) = true ∧ value (Scalar.epsilon : α) = 2 ^ (-52 : ℤ) := by
  obtain ⟨hbit, hvalue⟩ :=
    RoundedScalar.value_natCast (α := α) (n := Binary64.hiddenBit) (by decide)
  have hpower : value (Binary64.hiddenBit : α) = 2 ^ 52 := by
    rw [hvalue, show Binary64.hiddenBit = 2 ^ 52 by decide]
    norm_num
  obtain ⟨bound, hbound, hboundValue⟩ :=
    RoundedScalar.exists_value_eq (α := α) (-52) (by decide) (by decide)
  have hexact : value (1 : α) / value (Binary64.hiddenBit : α) = value bound := by
    rw [RoundedScalar.value_one, hpower, hboundValue]
    norm_num
  have hne : value (Binary64.hiddenBit : α) ≠ 0 := hpower ▸ pow_ne_zero 52 two_ne_zero
  -- The quotient is a power of two, which lies on both sides of what it is rounded to.
  obtain ⟨hfinite, hlow, hhigh⟩ :=
    RoundedScalar.div RoundedScalar.isFinite_one hbit hne hbound hbound hexact.ge hexact.le
  exact ⟨hfinite, (le_antisymm hhigh hlow).trans hboundValue⟩

/-- Whether a column varies or not, its scale is not zero. -/
theorem value_keptScale_ne_zero {xs : List α} (hfinite : Scalar.isFinite (keptScale xs) = true) :
    value (keptScale xs) ≠ 0 := by
  rw [keptScale] at hfinite ⊢
  split at hfinite
  · rename_i hflat
    rw [if_pos hflat, RoundedScalar.value_one]
    exact one_ne_zero
  · rename_i hvaries
    rw [if_neg hvaries]
    intro hzero
    obtain ⟨hepsilon, hvalue⟩ := value_epsilon (α := α)
    refine hvaries ((OrderedScalar.lt_iff hfinite hepsilon).mpr ?_)
    rw [hzero, hvalue]
    positivity

end Scales

/-- What can be relied on once a scaler has learned from a matrix of the given width. -/
structure IsFitted [RoundedScalar α] (s : Scaler α) (width : ℕ) : Prop where
  /-- There is a mean and a scale for every column, and no scale is zero. -/
  exists_statistics : ∃ mean scale : Vector α width,
    s.statistics = some ⟨mean.toArray, scale.toArray⟩ ∧
      ∀ x ∈ scale, Scalar.isFinite x = true → OrderedScalar.value x ≠ 0
  transform_of_width_eq : ∀ later : Matrix α, later.width = width →
    ∃ scaled, s.transform later = .ok scaled ∧ scaled.width = later.width ∧
      scaled.height = later.height
  transform_of_width_ne : ∀ later : Matrix α, later.width ≠ width →
    s.transform later = .error (.featureCountMismatch width later.width)

theorem isFitted_of_forall_ne_zero [RoundedScalar α] (policy : ZeroVariance) {width : ℕ}
    (mean scale : Vector α width)
    (hscale : ∀ x ∈ scale, Scalar.isFinite x = true → OrderedScalar.value x ≠ 0) :
    (⟨policy, some ⟨mean.toArray, scale.toArray⟩⟩ : Scaler α).IsFitted width := by
  refine ⟨⟨mean, scale, rfl, hscale⟩, fun later hwidth ↦ ?_, fun later hwidth ↦ ?_⟩
  · subst hwidth
    exact ⟨_, transform_toArray policy later mean scale, rfl, height_standardized later mean scale⟩
  · have hsize : mean.toArray.size ≠ later.width := by
      rw [mean.size_toArray]
      exact hwidth.symm
    rw [transform]
    refine (dif_neg hsize).trans ?_
    rw [mean.size_toArray]

/-! ### One fit -/

omit [Scalar α] in
theorem columnName_of_getElem? {names : List String} {j : ℕ} {given : String}
    (h : names[j]? = some given) : columnName names j = given := by
  rw [columnName, h, Option.getD_some]

omit [Scalar α] in
theorem columnName_of_length_le {names : List String} {j : ℕ} (h : names.length ≤ j) :
    columnName names j = "feature_" ++ toString j := by
  rw [columnName, List.getElem?_eq_none h, Option.getD_none]
  rfl

variable {s : Scaler α} {m : Matrix α} {names : List String}

theorem fitTransform_of_not_isLearnable (h : ¬m.IsLearnable s.policy) :
    ∃ failure, s.fitTransform m names = (.error failure, s) := by
  rcases hlearn : learn s.policy m names with failure | statistics
  · exact ⟨failure, fitTransform_of_learn_eq_error hlearn⟩
  · exact absurd (isLearnable_of_learn hlearn) h

/-- A fit fails with nothing but what keeps the scaler from learning. -/
theorem fitTransform_eq_error_iff {failure : Failure α} :
    (s.fitTransform m names).1 = .error failure ↔ learn s.policy m names = .error failure := by
  rcases hlearn : learn s.policy m names with cause | statistics
  · rw [fitTransform_of_learn_eq_error hlearn, Except.error.injEq, Except.error.injEq]
  · rw [fitTransform_of_isLearnable (isLearnable_of_learn hlearn)]
    simp only [reduceCtorEq]

theorem fitTransform_eq_emptySeries_iff :
    (s.fitTransform m names).1 = .error .emptySeries ↔ m.height = 0 := by
  rw [fitTransform_eq_error_iff]
  constructor
  · intro h
    by_contra hheight
    obtain ⟨j, -, -, -, hfailure⟩ := (learn_eq_error_iff (Nat.pos_of_ne_zero hheight)).mp h
    cases hfailure
  · intro hheight
    rw [learn, if_pos hheight]

/-- A column is refused only if all columns before it vary, and under the name that it has. -/
theorem fitTransform_eq_degenerateFeature_iff {column : ℕ} {name : String} :
    (s.fitTransform m names).1 = .error (.degenerateFeature column name) ↔
      0 < m.height ∧ s.policy = .reject ∧ ∃ j, m.IsFlat j ∧ (∀ k < j, ¬m.IsFlat k) ∧
        column = j ∧ name = columnName names j := by
  rw [fitTransform_eq_error_iff]
  rcases Nat.eq_zero_or_pos m.height with hheight | hheight
  · rw [learn, if_pos hheight]
    simp [hheight]
  · rw [learn_eq_error_iff hheight]
    constructor
    · rintro ⟨j, hpolicy, hflat, hfirst, hfailure⟩
      obtain ⟨hcolumn, hname⟩ := Failure.degenerateFeature.inj hfailure
      exact ⟨hheight, hpolicy, j, hflat, hfirst, hcolumn, hname⟩
    · rintro ⟨-, hpolicy, j, hflat, hfirst, rfl, rfl⟩
      exact ⟨j, hpolicy, hflat, hfirst, rfl⟩

/-- Some column is refused as soon as there is one that does not vary. -/
theorem exists_degenerateFeature_iff :
    (∃ column name, (s.fitTransform m names).1 = .error (.degenerateFeature column name)) ↔
      0 < m.height ∧ s.policy = .reject ∧ ∃ j, m.IsFlat j := by
  constructor
  · rintro ⟨column, name, h⟩
    obtain ⟨hheight, hpolicy, j, hflat, -⟩ := fitTransform_eq_degenerateFeature_iff.mp h
    exact ⟨hheight, hpolicy, j, hflat⟩
  · rintro ⟨hheight, hpolicy, j, hflat⟩
    have hrefused : ¬m.IsLearnable s.policy := fun h ↦ h.2 hpolicy j hflat
    obtain ⟨failure, hfit⟩ : ∃ failure, s.fitTransform m names = (.error failure, s) :=
      fitTransform_of_not_isLearnable hrefused
    have hfail := fitTransform_eq_error_iff.mp (congrArg Prod.fst hfit)
    obtain ⟨j, -, -, -, rfl⟩ := (learn_eq_error_iff hheight).mp hfail
    exact ⟨_, _, congrArg Prod.fst hfit⟩

/-- A fit that fails leaves the scaler as it is. -/
theorem fitTransform_of_fails {failure : Failure α}
    (h : (s.fitTransform m names).1 = .error failure) :
    s.fitTransform m names = (.error failure, s) :=
  fitTransform_of_learn_eq_error (fitTransform_eq_error_iff.mp h)

theorem emptySeries_or_degenerateFeature_of_fails {failure : Failure α}
    (h : (s.fitTransform m names).1 = .error failure) :
    failure = .emptySeries ∨ ∃ column name, failure = .degenerateFeature column name := by
  rcases Nat.eq_zero_or_pos m.height with hheight | hheight
  · rw [fitTransform_eq_emptySeries_iff.mpr hheight] at h
    exact .inl (Except.error.inj h).symm
  · obtain ⟨j, -, -, -, rfl⟩ := (learn_eq_error_iff hheight).mp (fitTransform_eq_error_iff.mp h)
    exact .inr ⟨_, _, rfl⟩

theorem exists_fitTransform_eq_ok_iff :
    (∃ scaled, (s.fitTransform m names).1 = .ok scaled) ↔ m.IsLearnable s.policy := by
  constructor
  · rintro ⟨scaled, h⟩
    exact isLearnable_of_fitTransform h
  · intro h
    exact ⟨_, congrArg Prod.fst (fitTransform_of_isLearnable h)⟩

theorem isFitted_of_isLearnable [RoundedScalar α] (h : m.IsLearnable s.policy) :
    (s.fitTransform m names).2.IsFitted m.width := by
  rw [fitTransform_of_isLearnable h]
  refine isFitted_of_forall_ne_zero s.policy (columnMeans m) (keptScales m) fun x hx hfinite ↦ ?_
  rw [keptScales, Vector.mem_ofFn] at hx
  obtain ⟨j, rfl⟩ := hx
  exact value_keptScale_ne_zero hfinite

/-! ### Many fits -/

/-- The scaler after fits to some matrices, each with the names of its columns. -/
def fits (s : Scaler α) (batches : List (Matrix α × List String)) : Scaler α :=
  batches.foldl (fun s (m, names) ↦ (s.fitTransform m names).2) s

theorem fits_concat (s : Scaler α) (batches : List (Matrix α × List String)) (m : Matrix α)
    (names : List String) :
    s.fits (batches ++ [(m, names)]) = ((s.fits batches).fitTransform m names).2 := by
  rw [fits, List.foldl_append]
  rfl

theorem policy_fitTransform (s : Scaler α) (m : Matrix α) (names : List String) :
    (s.fitTransform m names).2.policy = s.policy := by
  rw [fitTransform]
  split
  · rfl
  · rfl

theorem policy_fits (s : Scaler α) (batches : List (Matrix α × List String)) :
    (s.fits batches).policy = s.policy := by
  induction batches using List.reverseRecOn with
  | nil => rfl
  | append_singleton batches batch ih => rw [fits_concat, policy_fitTransform, ih]

/-- What a matrix teaches a scaler does not depend on what the scaler knew before. -/
theorem fitTransform_congr {s' : Scaler α} (hpolicy : s'.policy = s.policy)
    (h : m.IsLearnable s.policy) : s'.fitTransform m names = s.fitTransform m names := by
  rw [fitTransform_of_isLearnable h, fitTransform_of_isLearnable (hpolicy ▸ h), hpolicy]

/-- A scaler knows what the last matrix taught it that it could learn from, and what it knew at
first if there was none. -/
theorem fits_cases (s : Scaler α) (batches : List (Matrix α × List String)) :
    (s.fits batches = s ∧ ∀ batch ∈ batches, ¬batch.1.IsLearnable s.policy) ∨
      ∃ before m names after, batches = before ++ (m, names) :: after ∧
        m.IsLearnable s.policy ∧ (∀ batch ∈ after, ¬batch.1.IsLearnable s.policy) ∧
        s.fits batches = (s.fitTransform m names).2 := by
  induction batches using List.reverseRecOn with
  | nil => exact .inl ⟨rfl, nofun⟩
  | append_singleton batches batch ih =>
    obtain ⟨m, names⟩ := batch
    rw [fits_concat]
    have hpolicy := policy_fits s batches
    by_cases h : m.IsLearnable s.policy
    · exact .inr ⟨batches, m, names, [], rfl, h, nofun,
        congrArg Prod.snd (fitTransform_congr hpolicy h)⟩
    obtain ⟨failure, hfit⟩ := fitTransform_of_not_isLearnable (s := s.fits batches) (hpolicy ▸ h)
    have hafter {after : List (Matrix α × List String)}
        (hrest : ∀ batch ∈ after, ¬batch.1.IsLearnable s.policy) :
        ∀ batch ∈ after ++ [(m, names)], ¬batch.1.IsLearnable s.policy :=
      List.forall_mem_append.mpr ⟨hrest, List.forall_mem_singleton.mpr h⟩
    rw [hfit]
    rcases ih with ⟨hsame, hrest⟩ | ⟨before, last, lastNames, after, rfl, hlast, hrest, hfits⟩
    · exact .inl ⟨hsame, hafter hrest⟩
    · exact .inr ⟨before, last, lastNames, after ++ [(m, names)], by simp, hlast, hafter hrest,
        hfits⟩

/-! ### All or nothing -/

/-- A fit fails only for want of rows or for the first column that does not vary, where these are
refused; such a failure gives the name of the column, or its number where it has no name. If it
fails, the scaler is the one that it was, and if it succeeds, nothing but the matrix has a say in
what the scaler knows. So any number of fits comes to the last one that succeeded. -/
theorem fitTransform_all_or_nothing [RoundedScalar α] (s : Scaler α) (m : Matrix α)
    (names : List String) :
    ((s.fitTransform m names).1 = .error .emptySeries ↔ m.height = 0) ∧
    ((∃ column name, (s.fitTransform m names).1 = .error (.degenerateFeature column name)) ↔
      0 < m.height ∧ s.policy = .reject ∧ ∃ j, deviation (m.column j) < Scalar.epsilon) ∧
    (∀ column name, (s.fitTransform m names).1 = .error (.degenerateFeature column name) →
      ∃ j, deviation (m.column j) < Scalar.epsilon ∧
        (∀ k < j, ¬deviation (m.column k) < Scalar.epsilon) ∧ column = j ∧
        (∀ given, names[(j : ℕ)]? = some given → name = given) ∧
        (names.length ≤ j → name = "feature_" ++ toString (j : ℕ))) ∧
    (∀ failure, (s.fitTransform m names).1 = .error failure →
      (failure = .emptySeries ∨ ∃ column name, failure = .degenerateFeature column name) ∧
        (s.fitTransform m names).2 = s) ∧
    ((∃ scaled, (s.fitTransform m names).1 = .ok scaled) ↔ m.IsLearnable s.policy) ∧
    (∀ scaled, (s.fitTransform m names).1 = .ok scaled →
      scaled.width = m.width ∧ scaled.height = m.height ∧
        (s.fitTransform m names).2.policy = s.policy ∧
        (s.fitTransform m names).2.IsFitted m.width) ∧
    ∀ batches : List (Matrix α × List String),
      (s.fits batches = s ∧ ∀ batch ∈ batches, ¬batch.1.IsLearnable s.policy) ∨
      ∃ before last lastNames after, batches = before ++ (last, lastNames) :: after ∧
        last.IsLearnable s.policy ∧ (∀ batch ∈ after, ¬batch.1.IsLearnable s.policy) ∧
        s.fits batches = (s.fitTransform last lastNames).2 := by
  refine ⟨fitTransform_eq_emptySeries_iff, exists_degenerateFeature_iff, ?_, ?_,
    exists_fitTransform_eq_ok_iff, ?_, fits_cases s⟩
  · intro column name h
    obtain ⟨-, -, j, hflat, hfirst, hcolumn, rfl⟩ := fitTransform_eq_degenerateFeature_iff.mp h
    exact ⟨j, hflat, hfirst, hcolumn, fun _ hgiven ↦ columnName_of_getElem? hgiven,
      columnName_of_length_le⟩
  · intro failure h
    exact ⟨emptySeries_or_degenerateFeature_of_fails h, congrArg Prod.snd (fitTransform_of_fails h)⟩
  · intro scaled h
    have hlearnable := isLearnable_of_fitTransform h
    rw [fitTransform_of_isLearnable hlearnable] at h
    obtain rfl := Except.ok.inj h
    exact ⟨rfl, height_standardized m _ _, policy_fitTransform s m names,
      isFitted_of_isLearnable hlearnable⟩

/-- A scaler that has learned from two columns and refuses columns that do not vary. -/
def strictScaler : Scaler Float := ⟨.reject, some ⟨#[2, 3], #[4, 5]⟩⟩

/-- Two columns of floats, of which the second one does not vary. -/
def secondFlat : Matrix Float := ⟨2, #[#v[1, 5], #v[2, 5]]⟩

/-- A scaler that refuses a series all of whose values are the same still has what an earlier fit
taught it. Where a column that it refuses has no name, it is numbered. A series that varies takes
the place of what it was taught. -/
theorem fitTransform_all_or_nothing_level :
    (⟨.reject, some ⟨#[2, 3], #[4, 5]⟩⟩ : Scaler ℝ).fitTransform (.ofSeries [5, 5]) ["flat"] =
      (.error (.degenerateFeature 0 "flat"), ⟨.reject, some ⟨#[2, 3], #[4, 5]⟩⟩) ∧
    strictScaler.fitTransform secondFlat ["first"] =
      (.error (.degenerateFeature 1 "feature_1"), strictScaler) ∧
    ∃ scaled, (strictScaler.fitTransform (.ofSeries [1, 2]) []).1 = .ok scaled ∧
      scaled.width = 1 ∧ scaled.height = 2 ∧
      (strictScaler.fitTransform (.ofSeries [1, 2]) []).2.IsFitted 1 := by
  refine ⟨?_, ?_, ?_⟩
  · have hflat : deviation ((Matrix.ofSeries [(5 : ℝ), 5]).column (0 : Fin 1)) <
        Scalar.epsilon := by
      have hvariance : populationVariance [(5 : ℝ), 5] = 0 := by
        norm_num [populationVariance, populationMean]
      have hdeviation : deviation [(5 : ℝ), 5] = 0 := by
        rw [deviation_real, hvariance, Real.sqrt_zero]
      exact hdeviation.trans_lt epsilon_pos
    obtain ⟨-, hrefused, hfirst, hfails, -⟩ := fitTransform_all_or_nothing
      (⟨.reject, some ⟨#[2, 3], #[4, 5]⟩⟩ : Scaler ℝ) (.ofSeries [5, 5]) ["flat"]
    obtain ⟨column, name, hfail⟩ := hrefused.mpr ⟨by decide, rfl, (0 : Fin 1), hflat⟩
    obtain ⟨j, -, -, rfl, hgiven, -⟩ := hfirst column name hfail
    obtain rfl : j = (0 : Fin 1) := Subsingleton.elim (α := Fin 1) j 0
    obtain rfl := hgiven "flat" rfl
    exact Prod.ext hfail (hfails _ hfail).2
  · have hvaries : ¬deviation (secondFlat.column (0 : Fin 2)) < Scalar.epsilon := by
      decide +kernel
    have hflat : deviation (secondFlat.column (1 : Fin 2)) < Scalar.epsilon := by decide +kernel
    obtain ⟨-, hrefused, hfirst, hfails, -⟩ :=
      fitTransform_all_or_nothing strictScaler secondFlat ["first"]
    obtain ⟨column, name, hfail⟩ := hrefused.mpr ⟨by decide, rfl, (1 : Fin 2), hflat⟩
    obtain ⟨j, hlevel, -, rfl, -, hnumbered⟩ := hfirst column name hfail
    have hj : j ≠ (0 : Fin 2) := fun h ↦ hvaries (h ▸ hlevel)
    obtain rfl : j = (1 : Fin 2) := Fin.eq_one_of_ne_zero j hj
    obtain rfl := hnumbered le_rfl
    exact Prod.ext hfail (hfails _ hfail).2
  · obtain ⟨-, -, -, -, hlearns, hfitted, -⟩ :=
      fitTransform_all_or_nothing strictScaler (.ofSeries [1, 2]) []
    have hvaries : ∀ j, ¬deviation ((Matrix.ofSeries [(1 : Float), 2]).column j) <
      Scalar.epsilon := by decide +kernel
    obtain ⟨scaled, hok⟩ := hlearns.mpr ⟨by decide, fun _ ↦ hvaries⟩
    obtain ⟨hwidth, hheight, -, hfits⟩ := hfitted scaled hok
    exact ⟨scaled, hok, hwidth, hheight, hfits⟩

end Scaler

end OutlierScoring
