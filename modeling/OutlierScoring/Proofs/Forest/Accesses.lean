import OutlierScoring.Proofs.Forest.Growth
import OutlierScoring.Proofs.Forest.Ranks
import OutlierScoring.Proofs.Random.Samples

/-!
# Accesses in range

Growing a forest and scoring with it read rows and cells at positions that were computed elsewhere,
take the first row of a list of rows, divide by the number of trees, and look for two ranks among
the scores. Here the same computations are written by positions that are plain numbers, with every
one of these accesses looked up: `none` is what they come to as soon as one is out of range. They
never do, and come to the same as the computations that look nothing up
(`IsolationTree.growChecked?_eq`, `Forest.SplitsInside.scoresChecked?_eq`,
`ForestParams.fitChecked?_eq`).

The invariant of growing is that rows and columns come from those of the matrix, and that a list of
rows that is divided is not empty. For scores it is that a forest has trees, all of whose divisions
are on columns of the matrix, and for the quantile that there is a score for each row.
-/

namespace OutlierScoring

variable {α σ : Type}

/-- The cell in a row and a column, if there is one. -/
def Matrix.cell? (m : Matrix α) (i j : Nat) : Option α := m.rows[i]?.bind fun row ↦ row[j]?

theorem Matrix.cell?_val (m : Matrix α) (i : Fin m.height) (j : Fin m.width) :
    m.cell? i j = some ((m.row i).get j) := by
  have hi : i.val < m.rows.size := i.isLt
  rw [cell?, Array.getElem?_eq_getElem hi, Option.bind_some, Vector.getElem?_eq_getElem j.isLt]
  rfl

variable [Scalar α]

/-! ### Growing -/

namespace IsolationTree

/-- The extent of a column, which begins with the cell in the first row. -/
def extentChecked? (m : Matrix α) (rows : List Nat) (j : Nat) : Option (α × α) := do
  let first ← m.cell? (← rows.head?) j
  let cells ← rows.mapM fun i ↦ m.cell? i j
  return extent first cells

/-- The first of the columns that varies over some rows, with its extent, if there is one. -/
def splitChecked? (m : Matrix α) (rows : List Nat) : List Nat → Option (Option (Nat × α × α))
  | [] => some none
  | j :: columns => do
    let (low, high) ← extentChecked? m rows j
    if high - low ≤ flatness then splitChecked? m rows columns else return some (j, low, high)

/-- The rows with a cell below the threshold, and the other ones. -/
def divideChecked? (m : Matrix α) (j : Nat) (threshold : α) :
    List Nat → Option (List Nat × List Nat)
  | [] => some ([], [])
  | i :: rows => do
    let x ← m.cell? i j
    let (left, right) ← divideChecked? m j threshold rows
    return if x < threshold then (i :: left, right) else (left, i :: right)

/-- Grows a tree, with every access looked up. -/
def growChecked? (draws : Draws σ α) (m : Matrix α) :
    (height : Nat) → List Nat → σ → Option (IsolationTree α × σ)
  | 0, rows, s => some (leaf rows.length, s)
  | height + 1, rows, s =>
    if rows.length ≤ 1 then some (leaf rows.length, s)
    else
      let (columns, s) := draws.shuffle (List.range m.width) s
      (splitChecked? m rows columns).bind fun split ↦
        match split with
        | none => some (leaf rows.length, s)
        | some (j, low, high) =>
          let (fraction, s) := draws.fraction s
          let threshold := fraction * (high - low) + low
          (divideChecked? m j threshold rows).bind fun (left, right) ↦
            if left.isEmpty ∨ right.isEmpty then some (leaf rows.length, s)
            else
              (growChecked? draws m height left s).bind fun (leftTree, s) ↦
                (growChecked? draws m height right s).map fun (rightTree, s) ↦
                  (.node (some j) threshold rows.length leftTree rightTree, s)

variable (m : Matrix α)

omit [Scalar α] in
theorem mapM_cell?_val (rows : List (Fin m.height)) (j : Fin m.width) :
    (rows.map Fin.val).mapM (fun i ↦ m.cell? i j) = some (rows.map fun i ↦ (m.row i).get j) := by
  rw [Outcome.mapM_eq_some_iff, List.forall₂_map_left_iff, List.forall₂_map_right_iff,
    List.forall₂_same]
  exact fun i _ ↦ m.cell?_val i j

/-- The cell in the first row is compared once more with itself, which changes nothing. -/
theorem extent_self (x : α) (xs : List α) : extent x (x :: xs) = extent x xs := by
  have hlesser : Scalar.lesser x x = x := ite_self x
  have hgreater : Scalar.greater x x = x := ite_self x
  rw [extent, extent, List.foldl_cons, List.foldl_cons, hlesser, hgreater]

theorem extentChecked?_val (row : Fin m.height) (rows : List (Fin m.height)) (j : Fin m.width) :
    extentChecked? m ((row :: rows).map Fin.val) j =
      some (extent ((m.row row).get j) (rows.map fun i ↦ (m.row i).get j)) := by
  rw [extentChecked?, List.map_cons, List.head?_cons, ← List.map_cons, mapM_cell?_val,
    List.map_cons, ← extent_self]
  simp only [Option.bind_eq_bind, Option.bind_some, m.cell?_val]
  rfl

/-- The first column that varies is found among existing columns, by rows of which there is a
first one. -/
theorem splitChecked?_val {rows : List (Fin m.height)} (hrows : rows ≠ [])
    (columns : List (Fin m.width)) :
    splitChecked? m (rows.map Fin.val) (columns.map Fin.val) =
      some ((columns.findSome? fun j ↦ (varying? m rows j).map (j, ·)).map
        fun (j, extent) ↦ (j.val, extent)) := by
  obtain ⟨row, rows, rfl⟩ := List.exists_cons_of_ne_nil hrows
  have hextent := extentChecked?_val m row rows
  generalize (row :: rows).map Fin.val = positions at hextent ⊢
  induction columns with
  | nil => rfl
  | cons j columns ih =>
    rw [List.map_cons, splitChecked?, hextent, List.findSome?_cons, varying?]
    simp only [List.map_cons, Option.bind_eq_bind, Option.bind_some]
    split
    · exact ih
    · rfl

theorem divideChecked?_val (rows : List (Fin m.height)) (j : Fin m.width) (threshold : α) :
    divideChecked? m j threshold (rows.map Fin.val) =
      some ((rows.filter (goesLeft m j threshold)).map Fin.val,
        (rows.filter (!goesLeft m j threshold ·)).map Fin.val) := by
  induction rows with
  | nil => rfl
  | cons i rows ih =>
    rw [List.map_cons, divideChecked?, m.cell?_val, ih, List.filter_cons, List.filter_cons,
      goesLeft]
    by_cases hlt : (m.row i).get j < threshold
    · simp [hlt]
    · simp [hlt]

/-- Growing never reads a row or a column that the matrix does not have, nor the first one of no
rows. -/
theorem growChecked?_eq (draws : Draws σ α) (height : Nat) (rows : List (Fin m.height)) (s : σ) :
    growChecked? draws m height (rows.map Fin.val) s = some (grow draws m height rows s) := by
  induction height generalizing rows s with
  | zero => rw [growChecked?, grow, List.length_map]
  | succ height ih =>
    rw [growChecked?, grow, List.length_map]
    by_cases hfew : rows.length ≤ 1
    · rw [if_pos hfew, if_pos hfew]
    have hrows : rows ≠ [] := by
      rintro rfl
      exact hfew (Nat.zero_le 1)
    rw [if_neg hfew, if_neg hfew, ← List.map_coe_finRange_eq_range, draws.shuffle_map]
    rcases draws.shuffle (List.finRange m.width) s with ⟨columns, s⟩
    simp only [splitChecked?_val m hrows, Option.bind_some]
    rcases columns.findSome? fun j ↦ (varying? m rows j).map (j, ·) with _ | ⟨j, low, high⟩
    · rfl
    simp only [Option.map_some]
    rcases draws.fraction s with ⟨fraction, s⟩
    simp only [divideChecked?_val, Option.bind_some, List.isEmpty_map]
    split
    · rfl
    · simp only [ih, Option.bind_some, Option.map_some]

end IsolationTree

/-! ### Scores -/

namespace Forest

/-- The score of a row, if it has all columns that are asked for and if there are trees to take the
mean over. -/
def scoreRowChecked? (forest : Forest α) (row : List α) : Option α :=
  if forest.trees.isEmpty then none
  else (meanPathLength? forest.trees row).map (scoreOf forest.sampleSize)

/-- The scores of the rows of a matrix, with every access looked up. -/
def scoresChecked? (forest : Forest α) (m : Matrix α) : Option (Outcome α (List α)) :=
  if m.width ≠ forest.features then some (.error (.featureCountMismatch forest.features m.width))
  else
    match m.ensureFinite with
    | .error failure => some (.error failure)
    | .ok () => (m.rows.toList.mapM fun row ↦ forest.scoreRowChecked? row.toList).map .ok

/-- An answer for each row of a matrix, unless the matrix has another number of columns than the
forest, or a cell that is not finite. -/
def Settles {β : Type} (forest : Forest α) (m : Matrix α) (outcome : Outcome α (List β)) : Prop :=
  if m.width ≠ forest.features then
    outcome = .error (.featureCountMismatch forest.features m.width)
  else
    match m.firstNonFinite? with
    | some (row, column) => outcome = .error (.nonFiniteValue row column)
    | none => ∃ answers, outcome = .ok answers ∧ answers.length = m.height

variable {forest : Forest α}

theorem scoreRowChecked?_eq_some_iff (hne : forest.trees ≠ []) {row : List α} {score : α} :
    forest.scoreRowChecked? row = some score ↔ forest.scoreRow row = .ok score := by
  rw [scoreRowChecked?, if_neg (by simpa using hne), scoreRow]
  rcases meanPathLength? forest.trees row with _ | meanLength
  · constructor
    · intro h
      cases h
    · intro h
      cases h
  · rw [Option.map_some, Option.some.injEq, Except.ok.injEq]

/-- No row of the right width is read beyond its end. -/
theorem SplitsInside.scoresChecked?_eq (h : forest.SplitsInside) (hne : forest.trees ≠ [])
    (m : Matrix α) : forest.scoresChecked? m = some (forest.scores m) := by
  rw [scoresChecked?, scores_eq]
  by_cases hwidth : m.width = forest.features
  · rw [if_neg (not_not_intro hwidth), if_neg (not_not_intro hwidth)]
    rcases hfinite : m.ensureFinite with failure | _
    · rfl
    obtain ⟨scores, hscores⟩ := h.exists_scores_eq_ok hwidth hfinite
    rw [scores_of_finite hwidth hfinite] at hscores
    have hchecked : m.rows.toList.mapM (fun row ↦ forest.scoreRowChecked? row.toList) =
        some scores := by
      rw [Outcome.mapM_eq_some_iff]
      exact (Outcome.mapM_eq_ok_iff.mp hscores).imp fun row score ↦
        (scoreRowChecked?_eq_some_iff hne).mpr
    simp only [hchecked]
    exact congrArg some hscores.symm
  · rw [if_pos hwidth, if_pos hwidth]

theorem SplitsInside.settles_scores (h : forest.SplitsInside) (m : Matrix α) :
    forest.Settles m (forest.scores m) := by
  rw [Settles, scores_eq]
  by_cases hwidth : m.width = forest.features
  · rw [if_neg (not_not_intro hwidth), if_neg (not_not_intro hwidth), Matrix.ensureFinite]
    rcases hfinite : m.firstNonFinite? with _ | ⟨row, column⟩
    · have hensure : m.ensureFinite = .ok () := by rw [Matrix.ensureFinite, hfinite]
      obtain ⟨scores, hscores⟩ := h.exists_scores_eq_ok hwidth hensure
      have hlength := length_of_scores hscores
      rw [scores_of_finite hwidth hensure] at hscores
      exact ⟨scores, hscores, hlength⟩
    · rfl
  · rw [if_pos hwidth, if_pos hwidth]

/-- What is made of the answers one by one is settled too. -/
theorem Settles.map {β γ : Type} {m : Matrix α} {outcome : Outcome α (List β)}
    (h : forest.Settles m outcome) (f : β → γ) : forest.Settles m (outcome.map (List.map f)) := by
  rw [Settles] at h ⊢
  split at h
  · rename_i hwidth
    rw [if_pos hwidth, h]
    rfl
  · rename_i hwidth
    rw [if_neg hwidth]
    split at h
    · simp only [h]
      rfl
    · obtain ⟨answers, rfl, hlength⟩ := h
      exact ⟨answers.map f, rfl, (List.length_map f).trans hlength⟩

end Forest

/-! ### Fitting -/

/-- The quantile of a list, if there are numbers in it and both of its positions are among them. -/
def quantileChecked? (q : α) (xs : List α) : Option α :=
  if xs.length = 0 then none else quantile? q xs

namespace ForestParams

/-- Why no forest is fitted to a matrix. -/
inductive Refuses (p : ForestParams α) (m : Matrix α) : Failure α → Prop
  | contamination : ¬IsContamination p.contamination →
      Refuses p m (.invalidParameter .contamination p.contamination)
  | estimators : p.estimators = 0 → Refuses p m (.invalidParameter .estimators 0)
  | workers : p.workers = some 0 → Refuses p m (.invalidParameter .workers 0)
  | sampleLimit : p.sampleLimit = 0 → Refuses p m (.invalidParameter .sampleLimit 0)
  | noRows : m.height = 0 → Refuses p m .emptySeries
  | nonFinite {row column : Nat} : m.firstNonFinite? = some (row, column) →
      Refuses p m (.nonFiniteValue row column)

/-- Fails on the first reason not to fit a forest. -/
def accept (p : ForestParams α) (m : Matrix α) : Outcome α Unit := do
  p.check
  if m.height = 0 then throw .emptySeries
  m.ensureFinite

/-- The tree of the given index, with every access looked up. -/
def growTreeChecked? (chance : Chance σ α) (p : ForestParams α) (m : Matrix α)
    (sampleSize i : Nat) : Option (IsolationTree α) :=
  if m.height < sampleSize then none
  else
    let (sample, s) := chance.draws.sample m.height sampleSize (chance.start (p.seed i))
    (IsolationTree.growChecked? chance.draws m (heightLimit sampleSize) (sample.map Fin.val) s).map
      Prod.fst

/-- The forest for a matrix before its offset is known, with every access looked up. -/
def growForestChecked? (chance : Chance σ α) (p : ForestParams α) (m : Matrix α) :
    Option (Forest α) := do
  let sampleSize := min p.sampleLimit m.height
  let trees ← (List.range p.estimators).mapM (growTreeChecked? chance p m sampleSize)
  return { trees, sampleSize, features := m.width, contamination := p.contamination, offset := 0 }

/-- The fit of a forest to a matrix, with every access looked up. -/
def fitChecked? (chance : Chance σ α) (p : ForestParams α) (m : Matrix α) :
    Option (Outcome α (Forest α)) :=
  match p.accept m with
  | .error failure => some (.error failure)
  | .ok () =>
    (growForestChecked? chance p m).bind fun forest ↦ (forest.scoresChecked? m).bind fun
      | .error failure => some (.error failure)
      | .ok scores => (quantileChecked? p.contamination scores).map fun offset ↦
        .ok { forest with offset }

/-! ### Refusals -/

section Refusals

variable {p : ForestParams α} {m : Matrix α}

theorem check_cases (p : ForestParams α) (m : Matrix α) :
    (p.check = .ok () ∧ IsContamination p.contamination ∧ p.estimators ≠ 0 ∧
      p.workers ≠ some 0 ∧ p.sampleLimit ≠ 0) ∨
    ∃ failure, p.check = .error failure ∧ p.Refuses m failure := by
  rw [check_eq, checkContamination]
  by_cases hc : IsContamination p.contamination
  · rw [if_pos hc]
    show (p.checkCounts = _ ∧ _) ∨ ∃ failure, p.checkCounts = _ ∧ _
    rw [checkCounts]
    by_cases hestimators : p.estimators = 0
    · rw [if_pos hestimators]
      exact .inr ⟨_, rfl, .estimators hestimators⟩
    by_cases hworkers : p.workers = some 0
    · rw [if_neg hestimators, if_pos hworkers]
      exact .inr ⟨_, rfl, .workers hworkers⟩
    by_cases hlimit : p.sampleLimit = 0
    · rw [if_neg hestimators, if_neg hworkers, if_pos hlimit]
      exact .inr ⟨_, rfl, .sampleLimit hlimit⟩
    rw [if_neg hestimators, if_neg hworkers, if_neg hlimit]
    exact .inl ⟨rfl, hc, hestimators, hworkers, hlimit⟩
  · rw [if_neg hc]
    exact .inr ⟨_, rfl, .contamination hc⟩

/-- A matrix is accepted unless there is a reason not to, and a refusal names such a reason. -/
theorem accept_cases (p : ForestParams α) (m : Matrix α) :
    (p.accept m = .ok () ∧ ∀ failure, ¬p.Refuses m failure) ∨
      ∃ failure, p.accept m = .error failure ∧ p.Refuses m failure := by
  rcases p.check_cases m with ⟨hcheck, hc, hestimators, hworkers, hlimit⟩ | ⟨failure, hcheck, h⟩
  · rw [accept, hcheck]
    by_cases hheight : m.height = 0
    · refine .inr ⟨.emptySeries, ?_, .noRows hheight⟩
      simp only [hheight, if_true]
      rfl
    simp only [hheight, if_false]
    show (m.ensureFinite = _ ∧ _) ∨ ∃ failure, m.ensureFinite = _ ∧ _
    rw [Matrix.ensureFinite]
    rcases hfinite : m.firstNonFinite? with _ | ⟨row, column⟩
    · refine .inl ⟨rfl, ?_⟩
      rintro _ (h | h | h | h | h | h)
      · exact h hc
      · exact hestimators h
      · exact hworkers h
      · exact hlimit h
      · exact hheight h
      · cases hfinite.symm.trans h
    · exact .inr ⟨_, rfl, .nonFinite hfinite⟩
  · refine .inr ⟨failure, ?_, h⟩
    rw [accept, hcheck]
    rfl

end Refusals

/-! ### Success -/

variable (chance : Chance σ α) (p : ForestParams α) (m : Matrix α)

theorem growTreeChecked?_eq (i : Nat) :
    growTreeChecked? chance p m (min p.sampleLimit m.height) i =
      some (growTree chance p m (min p.sampleLimit m.height) i) := by
  rw [growTreeChecked?, growTree, if_neg (Nat.not_lt.mpr (Nat.min_le_right _ _))]
  simp only [IsolationTree.growChecked?_eq, Option.map_some]

/-- All trees are grown without an access out of range. -/
theorem growForestChecked?_eq : growForestChecked? chance p m = some (p.grow chance m) := by
  have htrees : (List.range p.estimators).mapM
      (growTreeChecked? chance p m (min p.sampleLimit m.height)) =
        some (p.grow chance m).trees := by
    rw [Outcome.mapM_eq_some_iff, grow, List.forall₂_map_right_iff, List.forall₂_same]
    exact fun i _ ↦ growTreeChecked?_eq chance p m i
  rw [growForestChecked?]
  simp only [htrees]
  rfl

theorem fit_eq_accept : p.fit chance m =
    p.accept m >>= fun _ ↦ (p.grow chance m).scores m >>= fun scores ↦
      match quantile? p.contamination scores with
      | some offset => .ok { p.grow chance m with offset }
      | none => .error (.breach .rankOutOfRange) := by
  rw [fit, accept]
  rcases p.check with failure | _
  · rfl
  by_cases hheight : m.height = 0
  · simp only [hheight, if_true]
    rfl
  simp only [hheight, if_false]
  show m.ensureFinite >>= _ = m.ensureFinite >>= _
  rcases m.ensureFinite with failure | _
  · rfl
  rfl

/-- Where there is no reason against it, a forest is fitted. -/
theorem exists_fit_of_not_refuses [LawfulRanks α] (hnone : ∀ failure, ¬p.Refuses m failure) :
    ∃ scores offset, (p.grow chance m).scores m = .ok scores ∧ scores ≠ [] ∧
      quantile? p.contamination scores = some offset ∧
        p.fit chance m = .ok { p.grow chance m with offset } := by
  have hc : IsContamination p.contamination := by
    by_contra hc
    exact hnone _ (.contamination hc)
  have hcounts : p.checkCounts = .ok () := checkCounts_eq_ok_iff.mpr
    ⟨fun h ↦ hnone _ (.estimators h), fun h ↦ hnone _ (.workers h),
      fun h ↦ hnone _ (.sampleLimit h)⟩
  have hheight : 0 < m.height := Nat.pos_of_ne_zero fun h ↦ hnone _ (.noRows h)
  have hfinite : m.ensureFinite = .ok () := by
    rw [Matrix.ensureFinite]
    rcases hfirst : m.firstNonFinite? with _ | ⟨row, column⟩
    · rfl
    · exact absurd (.nonFinite hfirst) (hnone _)
  exact exists_fit_eq_ok hc hcounts hheight hfinite

variable [LawfulRanks α]

theorem fit_cases : ((∃ forest, p.fit chance m = .ok forest) ∧ ∀ failure, ¬p.Refuses m failure) ∨
    ∃ failure, p.fit chance m = .error failure ∧ p.Refuses m failure := by
  rcases p.accept_cases m with ⟨haccept, hnone⟩ | ⟨failure, haccept, hrefuses⟩
  · obtain ⟨_, _, -, -, -, hfit⟩ := exists_fit_of_not_refuses chance p m hnone
    exact .inl ⟨⟨_, hfit⟩, hnone⟩
  · refine .inr ⟨failure, ?_, hrefuses⟩
    rw [fit_eq_accept, haccept]
    rfl

/-- The fit of a forest comes to its outcome without an access out of range. -/
theorem fitChecked?_eq : fitChecked? chance p m = some (p.fit chance m) := by
  rw [fitChecked?]
  rcases p.accept_cases m with ⟨haccept, hnone⟩ | ⟨failure, haccept, -⟩
  · obtain ⟨scores, offset, hscores, hne, hoffset, hfit⟩ :=
      exists_fit_of_not_refuses chance p m hnone
    have htrees : (p.grow chance m).trees ≠ [] := by
      have hestimators : p.estimators ≠ 0 := fun h ↦ hnone _ (.estimators h)
      simpa [grow, List.range_eq_nil] using hestimators
    have hchecked := (splitsInside_grow chance p m).scoresChecked?_eq htrees m
    have hquantile : quantileChecked? p.contamination scores = some offset := by
      rw [quantileChecked?, if_neg (by simpa using hne), hoffset]
    rw [haccept, hfit]
    simp only [growForestChecked?_eq, Option.bind_some, hchecked, hscores, hquantile,
      Option.map_some]
  · rw [fit_eq_accept, haccept]
    rfl

/-- A fit comes to a forest, or to a reason that it is refused for, without an access out of range;
neither does the fitted forest read beyond the end of any row that it is given. -/
theorem accesses_stay_in_range :
    fitChecked? chance p m = some (p.fit chance m) ∧
    ((∃ forest, p.fit chance m = .ok forest) ↔ ∀ failure, ¬p.Refuses m failure) ∧
    (p.fit chance m).FailsOnly (p.Refuses m) ∧
    ∀ forest, p.fit chance m = .ok forest → ∀ probe : Matrix α,
      forest.scoresChecked? probe = some (forest.scores probe) ∧
      forest.Settles probe (forest.scores probe) ∧
      forest.Settles probe (OutlierModel.decisions forest probe) ∧
      forest.Settles probe (OutlierModel.verdicts forest probe) := by
  refine ⟨fitChecked?_eq chance p m, ?_, ?_, ?_⟩
  · rcases fit_cases chance p m with ⟨hfit, hnone⟩ | ⟨failure, hfit, hrefuses⟩
    · exact ⟨fun _ ↦ hnone, fun _ ↦ hfit⟩
    · refine ⟨fun ⟨forest, h⟩ ↦ ?_, fun hnone ↦ absurd hrefuses (hnone failure)⟩
      cases hfit.symm.trans h
  · rcases fit_cases chance p m with ⟨⟨forest, hfit⟩, -⟩ | ⟨failure, hfit, hrefuses⟩
    · exact hfit ▸ Outcome.failsOnly_ok forest
    · exact hfit ▸ Outcome.failsOnly_error hrefuses
  · intro forest hfit probe
    have hinside := splitsInside_of_fit hfit
    have hscores := hinside.settles_scores probe
    have hdecisions : forest.Settles probe (OutlierModel.decisions forest probe) :=
      forest.decisions_eq probe ▸ hscores.map _
    refine ⟨?_, hscores, hdecisions, forest.verdicts_eq probe ▸ hdecisions.map _⟩
    exact hinside.scoresChecked?_eq (trees_ne_nil_of_fit hfit) probe

/-- The supply of draws that halves all extents, whatever the seed is. -/
def halvingChance : Chance Unit Float := ⟨.halving, fun _ ↦ ()⟩

/-- The two trees over two floats are grown, and score whatever they are given, with all accesses in
range. If each of them divides the two floats, the rows of a probe are compared on their way. -/
theorem accesses_stay_in_range_pair : LawfulRanks Float ∧
    (∃ forest, twoTrees.fit Keystream.chance (.ofSeries [(0 : Float), 1]) = .ok forest ∧
      twoTrees.fitChecked? Keystream.chance (.ofSeries [(0 : Float), 1]) = some (.ok forest) ∧
      (∀ failure, ¬twoTrees.Refuses (.ofSeries [(0 : Float), 1]) failure) ∧
      forest.scoresChecked? ⟨0, #[]⟩ = some (.error (.featureCountMismatch 1 0))) ∧
    ∃ forest scores, twoTrees.fit halvingChance (.ofSeries [(0 : Float), 1]) = .ok forest ∧
      forest.trees = List.replicate 2 (.node (some 0) 0.5 2 (.leaf 1) (.leaf 1)) ∧
      forest.scoresChecked? (.ofSeries [0.25, 0.75, 7]) = some (.ok scores) ∧
      scores.length = 3 := by
  refine ⟨inferInstance, ?_, ?_⟩
  · obtain ⟨forest, hfit⟩ := exists_fit_pair_float
    obtain ⟨hchecked, hrefuses, -, hprobes⟩ :=
      accesses_stay_in_range Keystream.chance twoTrees (.ofSeries [(0 : Float), 1])
    obtain ⟨hscores, hsettles, -, -⟩ := hprobes forest hfit ⟨0, #[]⟩
    have hfeatures : forest.features = 1 := features_of_fit hfit
    have hmismatch : forest.scores ⟨0, #[]⟩ = .error (.featureCountMismatch 1 0) := by
      rw [Forest.Settles, if_pos (by rw [hfeatures]; decide), hfeatures] at hsettles
      exact hsettles
    exact ⟨forest, hfit, hfit ▸ hchecked, hrefuses.mp ⟨forest, hfit⟩, hmismatch ▸ hscores⟩
  · obtain ⟨_, hfinite⟩ := Outcome.exists_of_isOk
      (show (Matrix.ofSeries [(0 : Float), 1]).ensureFinite.isOk = true by decide +kernel)
    obtain ⟨forest, hfit⟩ : ∃ forest,
        twoTrees.fit halvingChance (.ofSeries [(0 : Float), 1]) = .ok forest :=
      exists_fit_pair (by decide +kernel) hfinite
    obtain ⟨-, -, -, hprobes⟩ :=
      accesses_stay_in_range halvingChance twoTrees (.ofSeries [(0 : Float), 1])
    obtain ⟨hscores, hsettles, -, -⟩ := hprobes forest hfit (.ofSeries [0.25, 0.75, 7])
    have hfeatures : forest.features = 1 := features_of_fit hfit
    have hnone : (Matrix.ofSeries [(0.25 : Float), 0.75, 7]).firstNonFinite? = none := by
      rw [Matrix.firstNonFinite?_ofSeries]
      rfl
    rw [Forest.Settles, if_neg (by rw [hfeatures]; decide), hnone] at hsettles
    obtain ⟨scores, hok, hlength⟩ := hsettles
    obtain ⟨-, _, _, -, -, hforest⟩ := exists_of_fit_eq_ok hfit
    have htrees : (twoTrees.grow halvingChance (.ofSeries [(0 : Float), 1])).trees =
      List.replicate 2 (.node (some 0) 0.5 2 (.leaf 1) (.leaf 1)) := by decide +kernel
    exact ⟨forest, scores, hfit, hforest ▸ htrees, hok ▸ hscores, hlength⟩

end ForestParams

end OutlierScoring
