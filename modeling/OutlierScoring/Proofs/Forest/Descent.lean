import OutlierScoring.Forest.Basic

/-!
# Going down a tree

A row can be scored unless its way down a tree comes to a division on a column that it does not have
(`Strays`), and no row of the right width does so where all divisions are on existing columns
(`SplitsBelow`). Grown trees are of that kind whatever is drawn (`splitsBelow_grow`); trees that
were read from a document need not be.

The two notions look at a node as a way down does: a node without both children ends the way, with
or without a feature, so that nothing is asked of what stands below it.
-/

namespace OutlierScoring

namespace IsolationTree

variable {α σ : Type}

/-! ### Divisions -/

/-- Every division that a way down can come to is on one of the first `width` columns. -/
def SplitsBelow (width : Nat) : IsolationTree α → Prop
  | .absent => True
  | .node none _ _ _ _ => True
  | .node (some j) _ _ left right =>
    left.isPresent = true → right.isPresent = true →
      j < width ∧ left.SplitsBelow width ∧ right.SplitsBelow width

theorem isPresent_of_ne_absent {tree : IsolationTree α} (h : tree ≠ .absent) :
    tree.isPresent = true := by
  cases tree with
  | absent => exact absurd rfl h
  | node => rfl

variable [Scalar α]

theorem splitsBelow_leaf (width size : Nat) : (leaf size : IsolationTree α).SplitsBelow width :=
  trivial

/-- The way of a row comes to a division on a column that the row does not have. -/
inductive Strays (row : List α) : IsolationTree α → Prop
  | here {j : Nat} {threshold : α} {size : Nat} {left right : IsolationTree α} :
      left.isPresent = true → right.isPresent = true → row[j]? = none →
      Strays row (.node (some j) threshold size left right)
  | left {j : Nat} {x threshold : α} {size : Nat} {left right : IsolationTree α} :
      right.isPresent = true → row[j]? = some x → x < threshold → Strays row left →
      Strays row (.node (some j) threshold size left right)
  | right {j : Nat} {x threshold : α} {size : Nat} {left right : IsolationTree α} :
      left.isPresent = true → row[j]? = some x → ¬x < threshold → Strays row right →
      Strays row (.node (some j) threshold size left right)

theorem Strays.isPresent {row : List α} {tree : IsolationTree α} (h : Strays row tree) :
    tree.isPresent = true := by
  cases h <;> rfl

/-- One step down, where there are two ways to go. -/
theorem pathLength?_node (row : List α) (depth : α) (j : Nat) (threshold : α) (size : Nat)
    {left right : IsolationTree α} (hleft : left.isPresent = true)
    (hright : right.isPresent = true) :
    pathLength? row depth (.node (some j) threshold size left right) =
      row[j]?.bind fun x ↦
        if x < threshold then pathLength? row (depth + 1) left
        else pathLength? row (depth + 1) right := by
  cases left with
  | absent => exact absurd hleft nofun
  | node =>
    cases right with
    | absent => exact absurd hright nofun
    | node =>
      rw [pathLength?]
      rcases row[j]? with _ | x
      · rfl
      · rfl

/-- A way down ends where a feature or a child is missing. -/
theorem pathLength?_end (row : List α) (depth : α) {feature : Option Nat} (threshold : α)
    (size : Nat) {left right : IsolationTree α}
    (h : feature = none ∨ left = .absent ∨ right = .absent) :
    pathLength? row depth (.node feature threshold size left right) =
      some (depth + averagePathLength size) := by
  rw [pathLength?]
  rintro j f t n l r f' t' n' l' r' rfl rfl rfl
  rcases h with h | h | h <;> cases h

theorem Strays.not_end {row : List α} {feature : Option Nat} {threshold : α} {size : Nat}
    {left right : IsolationTree α}
    (hstrays : Strays row (.node feature threshold size left right)) :
    ¬(feature = none ∨ left = .absent ∨ right = .absent) := by
  rintro (rfl | rfl | rfl)
  · exact absurd hstrays nofun
  · cases hstrays with
    | here hpresent => exact absurd hpresent nofun
    | left _ _ _ hstrays => exact absurd hstrays.isPresent nofun
    | right hpresent => exact absurd hpresent nofun
  · cases hstrays with
    | here _ hpresent => exact absurd hpresent nofun
    | left hpresent => exact absurd hpresent nofun
    | right _ _ _ hstrays => exact absurd hstrays.isPresent nofun

/-- A row has a way down unless it strays. -/
theorem pathLength?_eq_none_iff (row : List α) (depth : α) (tree : IsolationTree α) :
    pathLength? row depth tree = none ↔ tree.Strays row := by
  -- Below a node the depth is another one, so that it has to be general in the induction.
  induction tree generalizing depth with
  | absent =>
    rw [pathLength?]
    exact ⟨fun h ↦ absurd h (Option.some_ne_none _), fun h ↦ absurd h.isPresent Bool.false_ne_true⟩
  | node feature threshold size left right hleft hright =>
    by_cases hends : feature = none ∨ left = .absent ∨ right = .absent
    · rw [pathLength?_end row depth threshold size hends]
      exact ⟨fun h ↦ absurd h (Option.some_ne_none _), fun h ↦ absurd hends h.not_end⟩
    · obtain ⟨j, rfl⟩ := Option.ne_none_iff_exists'.mp fun h ↦ hends (.inl h)
      have hpresent := isPresent_of_ne_absent fun h ↦ hends (.inr (.inl h))
      have hpresent' := isPresent_of_ne_absent fun h ↦ hends (.inr (.inr h))
      rw [pathLength?_node row depth j threshold size hpresent hpresent']
      rcases hcell : row[j]? with _ | x
      · exact ⟨fun _ ↦ .here hpresent hpresent' hcell, fun _ ↦ rfl⟩
      rw [Option.bind_some]
      split
      · rename_i hlt
        rw [hleft]
        refine ⟨fun h ↦ .left hpresent' hcell hlt h, fun h ↦ ?_⟩
        cases h with
        | here _ _ hnone => exact absurd (hcell.symm.trans hnone) (Option.some_ne_none _)
        | left _ _ _ hstrays => exact hstrays
        | right _ hcell' hge => exact absurd (Option.some.inj (hcell.symm.trans hcell') ▸ hlt) hge
      · rename_i hge
        rw [hright]
        refine ⟨fun h ↦ .right hpresent hcell hge h, fun h ↦ ?_⟩
        cases h with
        | here _ _ hnone => exact absurd (hcell.symm.trans hnone) (Option.some_ne_none _)
        | left _ hcell' hlt => exact absurd (Option.some.inj (hcell'.symm.trans hcell) ▸ hlt) hge
        | right _ _ _ hstrays => exact hstrays

/-- Where all divisions are on existing columns no row strays. -/
theorem SplitsBelow.not_strays {row : List α} {tree : IsolationTree α}
    (h : tree.SplitsBelow row.length) : ¬tree.Strays row := by
  intro hstrays
  induction hstrays with
  | here hleft hright hnone =>
    exact absurd (h hleft hright).1 (Nat.not_lt.mpr (List.getElem?_eq_none_iff.mp hnone))
  | left hright _ _ hstrays ih => exact ih (h hstrays.isPresent hright).2.1
  | right hleft _ _ hstrays ih => exact ih (h hleft hstrays.isPresent).2.2

/-! ### Grown trees -/

/-- Whatever is drawn, a grown tree divides existing columns only. -/
theorem splitsBelow_grow (draws : Draws σ α) (m : Matrix α) (height : Nat)
    (rows : List (Fin m.height)) (s : σ) : (grow draws m height rows s).1.SplitsBelow m.width := by
  induction height generalizing rows s with
  | zero => exact splitsBelow_leaf m.width rows.length
  | succ height ih =>
    rw [grow]
    split
    · exact splitsBelow_leaf m.width rows.length
    simp only
    split
    · exact splitsBelow_leaf m.width rows.length
    split
    · exact splitsBelow_leaf m.width rows.length
    · rename_i j _ _ _ _
      exact fun _ _ ↦ ⟨j.isLt, ih _ _, ih _ _⟩

end IsolationTree

end OutlierScoring
