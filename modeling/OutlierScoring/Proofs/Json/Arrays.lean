import Mathlib.Algebra.BigOperators.Group.List.Lemmas
import Mathlib.Algebra.Order.BigOperators.GroupWithZero.List
import OutlierScoring.Proofs.Json.Forms
import OutlierScoring.Proofs.Outcome

/-!
# Shaped arrays in documents

An array is read back from its own document exactly if it can be stored (`Shaped.reads_array`), and
no other document gives an array that cannot be stored (`Shaped.isStorable_of_ofJson?`), whatever
members it has and in whatever order they are.
-/

namespace OutlierScoring.Json

/-! ### What is read -/

theorem isFinite_of_scalar?_eq_some {α : Type} [Scalar α] [Numeral α] {j : Json} {x : α}
    (h : scalar? j = some x) : Scalar.isFinite x = true := by
  unfold scalar? at h
  split at h
  · simp only at h
    split at h
    · rename_i hfinite
      exact Option.some.inj h ▸ hfinite
    · cases h
  · cases h

/-- All that a list holds was read as an item. -/
theorem forall_of_list?_eq_some {β : Type} {read : Nat → Json → Option β} {kind : β → Prop}
    (hread : ∀ depth j x, read depth j = some x → kind x) {depth : Nat} {j : Json} {xs : List β}
    (h : list? depth read j = some xs) : ∀ x ∈ xs, kind x := by
  unfold list? at h
  split at h
  · split at h
    · cases h
    · intro x hx
      obtain ⟨i, hi, rfl⟩ := List.getElem_of_mem hx
      have hitems := Outcome.mapM_eq_some_iff.mp h
      exact hread _ _ _ (hitems.get (hitems.length_eq ▸ hi) hi)
  · cases h

namespace Shaped

/-- Dimensions ask for a number of cells if they multiply to it, and if memory can hold what they
multiply to without those that are zero. -/
theorem cellCount?_eq_some_iff (dims : List Nat) (n : Nat) :
    cellCount? dims = some n ↔ (dims.map (max · 1)).prod < UInt64.size / 2 ∧ n = dims.prod := by
  have hextents : (dims.filter (· ≠ 0)).prod = (dims.map (max · 1)).prod := by
    induction dims with
    | nil => rfl
    | cons d dims ih =>
      rw [List.filter_cons, List.map_cons, List.prod_cons, ← ih]
      rcases Nat.eq_zero_or_pos d with rfl | hpos
      · simp
      · rw [if_pos (by simpa using Nat.ne_of_gt hpos), List.prod_cons, Nat.max_eq_left hpos]
  rw [cellCount?, ← List.prod_eq_foldl, ← List.prod_eq_foldl, hextents]
  split
  · rename_i hfits
    simp [hfits, eq_comm]
  · rename_i hfits
    simp [hfits]

variable {α : Type} [Scalar α]

/-- The array can be stored: it has as many cells as its dimensions ask for, memory can hold them,
and all of them are finite. -/
structure IsStorable (a : Shaped α) : Prop where
  extents_lt : (a.dims.map (max · 1)).prod < UInt64.size / 2
  length_cells : a.cells.length = a.dims.prod
  isFinite : ∀ x ∈ a.cells, Scalar.isFinite x = true

/-- The dimensions of an array that can be stored are naturals of 64 bits. -/
theorem IsStorable.lt_of_mem_dims {a : Shaped α} (h : a.IsStorable) :
    ∀ d ∈ a.dims, d < UInt64.size := by
  intro d hd
  have hpos : 0 < (a.dims.map (max · 1)).prod := by
    refine List.prod_pos fun x hx ↦ ?_
    obtain ⟨y, -, rfl⟩ := List.mem_map.mp hx
    exact Nat.lt_of_lt_of_le Nat.one_pos (Nat.le_max_right y 1)
  have hdvd := List.dvd_prod (List.mem_map_of_mem (f := (max · 1)) hd)
  calc d ≤ max d 1 := Nat.le_max_left d 1
    _ ≤ (a.dims.map (max · 1)).prod := Nat.le_of_dvd hpos hdvd
    _ < UInt64.size / 2 := h.extents_lt
    _ ≤ UInt64.size := Nat.div_le_self _ _

variable [Numeral α]

/-- Reading an array goes one level down, whatever the document is. -/
theorem ofJson?_succ (rank depth : Nat) (j : Json) :
    (ofJson? rank (depth + 1) j : Option (Shaped α)) =
      (members? j).bind fun members ↦
        (members.foldlM (readMember? rank depth) ⟨none, none, none⟩).bind fun read ↦
          read.version.bind fun _ ↦ read.dims.bind fun dims ↦ read.cells.bind fun cells ↦
            if cellCount? dims = some cells.length then some ⟨dims, cells⟩ else none := rfl

/-! ### Any document -/

/-- What has been read so far is fit for an array of `rank` dimensions. -/
structure Partial.IsFit (rank : Nat) (soFar : Partial α) : Prop where
  dims : ∀ dims ∈ soFar.dims, dims.length = rank
  cells : ∀ cells ∈ soFar.cells, ∀ x ∈ cells, Scalar.isFinite x = true

variable {rank depth : Nat} {soFar read : Partial α}

/-- Each member is checked when it is read. -/
theorem Partial.IsFit.of_readMember? (hfit : soFar.IsFit rank) {member : String × Json}
    (h : readMember? rank depth soFar member = some read) : read.IsFit rank := by
  unfold readMember? at h
  split at h
  · obtain ⟨n, -, h⟩ := Option.bind_eq_some_iff.mp h
    split at h
    · cases h
      exact ⟨hfit.dims, hfit.cells⟩
    · cases h
  · obtain ⟨dims, -, h⟩ := Option.bind_eq_some_iff.mp h
    split at h
    · rename_i hrank
      cases h
      exact ⟨fun dims' hdims' ↦ Option.some.inj hdims' ▸ hrank, hfit.cells⟩
    · cases h
  · obtain ⟨cells, hcells, h⟩ := Option.bind_eq_some_iff.mp h
    cases h
    refine ⟨hfit.dims, fun cells' hcells' ↦ ?_⟩
    obtain rfl := Option.some.inj hcells'
    exact forall_of_list?_eq_some (fun _ _ _ ↦ isFinite_of_scalar?_eq_some) hcells
  · cases h

theorem Partial.IsFit.of_foldlM (hfit : soFar.IsFit rank)
    {members : List (String × Json)}
    (h : members.foldlM (readMember? rank depth) soFar = some read) : read.IsFit rank := by
  induction members generalizing soFar with
  | nil =>
    cases h
    exact hfit
  | cons member members ih =>
    rw [List.foldlM_cons] at h
    obtain ⟨next, hnext, h⟩ := Option.bind_eq_some_iff.mp h
    exact ih (hfit.of_readMember? hnext) h

/-- Whatever the document is, the array that is read from it can be stored. -/
theorem isStorable_of_ofJson? {j : Json} {a : Shaped α} (h : ofJson? rank depth j = some a) :
    a.dims.length = rank ∧ a.IsStorable := by
  rcases depth with _ | depth
  · cases h
  rw [ofJson?_succ] at h
  obtain ⟨members, -, h⟩ := Option.bind_eq_some_iff.mp h
  obtain ⟨read, hread, h⟩ := Option.bind_eq_some_iff.mp h
  obtain ⟨_, -, h⟩ := Option.bind_eq_some_iff.mp h
  obtain ⟨dims, hdims, h⟩ := Option.bind_eq_some_iff.mp h
  obtain ⟨cells, hcells, h⟩ := Option.bind_eq_some_iff.mp h
  have hstart : (⟨none, none, none⟩ : Partial α).IsFit rank :=
    ⟨fun _ hmem ↦ absurd hmem (Option.not_mem_none _),
      fun _ hmem ↦ absurd hmem (Option.not_mem_none _)⟩
  have hfit := hstart.of_foldlM hread
  split at h
  · rename_i hcount
    cases h
    obtain ⟨hextents, hlength⟩ := (cellCount?_eq_some_iff _ _).mp hcount
    exact ⟨hfit.dims dims hdims, hextents, hlength, hfit.cells cells hcells⟩
  · cases h

/-! ### The document of an array -/

omit [Scalar α] in
theorem nesting_toJson_le (a : Shaped α) : (toJson a).nesting ≤ 2 := by
  refine nesting_record_le ?_
  intro member hmember
  simp only [List.mem_cons, List.not_mem_nil, or_false] at hmember
  rcases hmember with rfl | rfl | rfl
  · exact Nat.zero_le _
  · exact nesting_list_le fun (_ : Nat) _ ↦ Nat.le_refl 0
  · refine nesting_list_le ?_
    intro x _
    rw [nesting_scalar]

variable [LawfulNumeral α]

theorem reads_dims (depth : Nat) (dims : List Nat) :
    Reads (list? (depth + 1) (fun _ ↦ nat?) (Json.list (dims.map nat)).canonical) dims
      (∀ n ∈ dims, n < UInt64.size) :=
  reads_list nat (fun _ ↦ nat?) depth dims fun n _ ↦ reads_nat n

omit [LawfulNumeral α] in
/-- Reading an array goes through its dimensions and its cells. -/
theorem ofJson?_toJson (depth : Nat) (a : Shaped α) :
    (ofJson? a.dims.length (depth + 2) (toJson a).canonical : Option (Shaped α)) =
      (do
        let dims ← list? (depth + 1) (fun _ ↦ nat?) (Json.list (a.dims.map nat)).canonical
        let cells ← list? (depth + 1) (fun _ ↦ scalar?) (Json.list (a.cells.map scalar)).canonical
        if cellCount? dims = some cells.length then some ⟨dims, cells⟩ else none) := by
  have hversion : nat? (nat version).canonical = some version :=
    (reads_nat version).eq_some (by decide)
  have hrecord : Shaped.members? (toJson a).canonical =
      some [("v", (nat version).canonical), ("dim", (Json.list (a.dims.map nat)).canonical),
        ("data", (Json.list (a.cells.map scalar)).canonical)] := rfl
  -- The members are read in their order, so that the first one that cannot be read decides.
  rw [ofJson?_succ, hrecord, Option.bind_some]
  rcases hdims : list? (depth + 1) (fun _ ↦ nat?) (Json.list (a.dims.map nat)).canonical
    with _ | dims
  · simp [readMember?, hversion, hdims]
  · obtain rfl := ((reads_dims depth a.dims dims).mp hdims).2
    rcases hcells : list? (depth + 1) (fun _ ↦ (scalar? : Json → Option α))
      (Json.list (a.cells.map scalar)).canonical with _ | cells <;>
    simp [readMember?, hversion, hdims, hcells]

/-- An array is read back from its document exactly if it can be stored. -/
theorem reads_array (depth : Nat) (a : Shaped α) :
    Reads (ofJson? a.dims.length (depth + 2) (toJson a).canonical) a a.IsStorable := by
  have hcells := reads_list scalar (fun _ ↦ scalar?) depth a.cells fun x _ ↦ reads_scalar x
  have hcount : Reads (if cellCount? a.dims = some a.cells.length then some a else none) a
      (cellCount? a.dims = some a.cells.length) :=
    reads_of_eq (fun h ↦ if_pos h) fun h ↦ if_neg h
  rw [ofJson?_toJson]
  refine Reads.congr ((reads_dims depth a.dims).bind (hcells.bind hcount)) ?_
  rw [cellCount?_eq_some_iff]
  exact ⟨fun ⟨_, hfinite, hextents, hlength⟩ ↦ ⟨hextents, hlength, hfinite⟩,
    fun h ↦ ⟨h.lt_of_mem_dims, h.isFinite, h.extents_lt, h.length_cells⟩⟩

end Shaped

end OutlierScoring.Json
