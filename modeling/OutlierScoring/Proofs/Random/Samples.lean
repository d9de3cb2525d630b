import Mathlib
import OutlierScoring.Random.Sampling

/-!
# Samples

A supply of draws samples without repetition if it gives as many positions as it was asked for and
no position twice (`Draws.SamplesDistinct`). Whatever comes up in the stream, the keystream does so
(`Keystream.samplesDistinct`): each of its three ways of sampling keeps a list of different
positions while it goes on.
-/

namespace OutlierScoring

variable {σ α β : Type}

/-- As many positions as were asked for, all of them different. -/
structure IsSample {length : Nat} (amount : Nat) (positions : List (Fin length)) : Prop where
  nodup : positions.Nodup
  length_eq : positions.length = amount

/-- Whatever the state is, no position comes up twice in a sample. -/
def Draws.SamplesDistinct (draws : Draws σ α) : Prop :=
  ∀ {length amount : Nat}, amount ≤ length →
    ∀ s : σ, IsSample amount (draws.sample length amount s).1

namespace Draws

/-! ### Shuffling -/

theorem shuffleFrom_perm (draws : Draws σ α) {n i : Nat} (h : i < n) (items : Vector β n) (s : σ) :
    (draws.shuffleFrom i h items s).1.toList.Perm items.toList := by
  induction i generalizing items s with
  | zero => exact .refl _
  | succ i ih =>
    rw [shuffleFrom]
    exact (ih _ _ _).trans (Vector.swap_perm ..).toList

/-- Whatever is drawn, the same items come out. -/
theorem shuffle_perm (draws : Draws σ α) (items : List β) (s : σ) :
    (draws.shuffle items s).1.Perm items := by
  rw [shuffle]
  split
  · exact draws.shuffleFrom_perm _ _ _
  · exact .refl _

theorem map_swap {γ : Type} (f : β → γ) {n i j : Nat} (hi : i < n) (hj : j < n)
    (items : Vector β n) : (items.map f).swap i j hi hj = (items.swap i j hi hj).map f := by
  refine Vector.ext fun k hk ↦ ?_
  simp only [Vector.getElem_swap, Vector.getElem_map]
  split
  · rfl
  · split <;> rfl

theorem shuffleFrom_map {γ : Type} (draws : Draws σ α) (f : β → γ) {n i : Nat} (h : i < n)
    (items : Vector β n) (s : σ) : draws.shuffleFrom i h (items.map f) s =
      ((draws.shuffleFrom i h items s).1.map f, (draws.shuffleFrom i h items s).2) := by
  induction i generalizing items s with
  | zero => rfl
  | succ i ih =>
    rw [shuffleFrom, shuffleFrom]
    rcases draws.index (i + 1) s with ⟨j, s⟩
    simp only [map_swap]
    exact ih _ _ _

theorem shuffle_toList (draws : Draws σ α) {n : Nat} (items : Vector β n) (s : σ) :
    draws.shuffle items.toList s =
      if h : 0 < n then
        ((draws.shuffleFrom (n - 1) (Nat.sub_lt h Nat.one_pos) items s).1.toList,
          (draws.shuffleFrom (n - 1) (Nat.sub_lt h Nat.one_pos) items s).2)
      else (items.toList, s) := by
  obtain ⟨items, rfl⟩ := items
  rfl

/-- The draws do not depend on what is shuffled. -/
theorem shuffle_map {γ : Type} (draws : Draws σ α) (f : β → γ) (items : List β) (s : σ) :
    draws.shuffle (items.map f) s =
      ((draws.shuffle items s).1.map f, (draws.shuffle items s).2) := by
  obtain ⟨n, v, rfl⟩ : ∃ (n : Nat) (v : Vector β n), items = v.toList :=
    ⟨items.toArray.size, ⟨items.toArray, rfl⟩, rfl⟩
  rw [← Vector.toList_map, shuffle_toList, shuffle_toList]
  split
  · rw [shuffleFrom_map, Vector.toList_map]
  · rw [Vector.toList_map]

/-- A supply of draws of which all fractions are one half, and which leaves lists in order. -/
def halving [Scalar α] : Draws Unit α where
  index bound s := (Fin.last bound, s)
  fraction s := (1 / Scalar.two, s)
  sample length amount s := ((List.finRange length).take amount, s)

end Draws

namespace Keystream

variable {length : Nat}

/-! ### In place -/

theorem exchange_perm (count i : Nat) (items : Vector (Fin length) length) (s : Keystream) :
    (exchange count i items s).1.toList.Perm items.toList := by
  induction count generalizing i items s with
  | zero => exact .refl _
  | succ count ih =>
    rw [exchange]
    split
    · exact (ih _ _ _).trans (Vector.swap_perm ..).toList
    · exact .refl _

theorem isSample_sampleInPlace {amount : Nat} (h : amount ≤ length) (s : Keystream) :
    IsSample amount (sampleInPlace length amount s).1 where
  nodup := by
    have hall : (Vector.ofFn (id : Fin length → Fin length)).toList.Nodup := by
      rw [Vector.toList_ofFn]
      exact List.nodup_ofFn.mpr Function.injective_id
    exact ((exchange_perm amount 0 _ s).nodup_iff.mpr hall).sublist (List.take_sublist _ _)
  length_eq := by simp [sampleInPlace, h]

/-! ### One position at a time -/

/-- An insertion adds the drawn position, or the last one if the drawn one is taken. -/
def Adds (insert : Fin length → Fin length → List (Fin length) → List (Fin length)) : Prop :=
  ∀ last drawn taken,
    (insert last drawn taken).Perm ((if drawn ∈ taken then last else drawn) :: taken)

theorem adds_insertBefore : @Adds length insertBefore := by
  intro last drawn taken
  induction taken with
  | nil => exact .refl _
  | cons x taken ih =>
    rw [insertBefore]
    by_cases hx : x = drawn
    · rw [if_pos hx, if_pos (hx ▸ List.mem_cons_self)]
    · have hmem : drawn ∈ x :: taken ↔ drawn ∈ taken := by
        rw [List.mem_cons, or_iff_right (Ne.symm hx)]
      rw [if_neg hx]
      simp only [hmem]
      exact (ih.cons x).trans (.swap ..)

theorem adds_insertLast : @Adds length insertLast := by
  intro last drawn taken
  rw [insertLast]
  simp only [List.contains_iff_mem]
  exact List.perm_append_singleton ..

/-- Different positions, all below a bound. -/
structure AreBelow (taken : List (Fin length)) (bound : Nat) : Prop where
  nodup : taken.Nodup
  lt : ∀ i ∈ taken, i.val < bound

/-- The position that is added is not taken: the last one lies above all of them. -/
theorem AreBelow.insert {insert : Fin length → Fin length → List (Fin length) → List (Fin length)}
    (hinsert : Adds insert) {last drawn : Fin length} {taken : List (Fin length)}
    (h : AreBelow taken last) (hdrawn : drawn ≤ last) :
    AreBelow (insert last drawn taken) (last + 1) := by
  have hperm := hinsert last drawn taken
  constructor
  · rw [hperm.nodup_iff, List.nodup_cons]
    refine ⟨?_, h.nodup⟩
    split
    · exact fun hlast ↦ (h.lt last hlast).ne rfl
    · assumption
  · intro i hi
    rcases List.mem_cons.mp (hperm.mem_iff.mp hi) with rfl | hi
    · split
      · exact Nat.lt_succ_self _
      · exact Nat.lt_succ_of_le hdrawn
    · exact Nat.lt_succ_of_lt (h.lt i hi)

theorem isSample_growSample
    {insert : Fin length → Fin length → List (Fin length) → List (Fin length)}
    (hinsert : Adds insert) {count : Nat} (hcount : count ≤ length) {taken : List (Fin length)}
    (h : AreBelow taken (length - count)) (s : Keystream) :
    IsSample (taken.length + count) (growSample insert count hcount taken s).1 := by
  induction count generalizing taken s with
  | zero => exact ⟨h.nodup, rfl⟩
  | succ count ih =>
    rw [growSample]
    generalize s.index (length - (count + 1)) = drawn
    obtain ⟨drawn, s⟩ := drawn
    let last : Fin length := ⟨length - (count + 1), by omega⟩
    let position : Fin length := ⟨drawn, by omega⟩
    have hbelow : AreBelow (insert last position taken) (length - (count + 1) + 1) :=
      h.insert hinsert (Nat.le_of_lt_succ drawn.isLt)
    rw [show length - (count + 1) + 1 = length - count by omega] at hbelow
    obtain ⟨hnodup, hlength⟩ := ih (by omega) hbelow s
    refine ⟨hnodup, hlength.trans ?_⟩
    rw [(hinsert last position taken).length_eq, List.length_cons]
    omega

theorem isSample_sampleGrowing {amount : Nat} (h : amount ≤ length) (s : Keystream) :
    IsSample amount (sampleGrowing length amount s).1 := by
  have hnone : AreBelow ([] : List (Fin length)) (length - min amount length) := ⟨.nil, nofun⟩
  have hcount : ([] : List (Fin length)).length + min amount length = amount := by simp [h]
  rw [sampleGrowing]
  split
  · have htaken := isSample_growSample adds_insertBefore (min_le_right ..) hnone s
    exact ⟨htaken.nodup, htaken.length_eq.trans hcount⟩
  · have htaken := isSample_growSample adds_insertLast (min_le_right ..) hnone s
    have hperm := indexDraws.shuffle_perm
      (growSample insertLast (min amount length) (min_le_right ..) [] s).1
      (growSample insertLast (min amount length) (min_le_right ..) [] s).2
    exact ⟨hperm.nodup_iff.mpr htaken.nodup,
      (hperm.length_eq.trans htaken.length_eq).trans hcount⟩

/-! ### Drawing again -/

/-- The marked positions are those that are taken, each once. -/
structure Marks (marked : Vector Bool length) (taken : List (Fin length)) : Prop where
  nodup : taken.Nodup
  mem_iff (i : Fin length) : marked.get i = true ↔ i ∈ taken

namespace Marks

variable {marked : Vector Bool length} {taken : List (Fin length)}

theorem cons (h : Marks marked taken) {i : Fin length} (hi : ¬marked.get i = true) :
    Marks (marked.set i true i.isLt) (i :: taken) where
  nodup := List.nodup_cons.mpr ⟨fun hmem ↦ hi ((h.mem_iff i).mpr hmem), h.nodup⟩
  mem_iff j := by
    rw [List.mem_cons, ← h.mem_iff j]
    by_cases hj : j = i
    · subst hj
      simp [Vector.get_eq_getElem]
    · have hne : i.val ≠ j.val := fun heq ↦ hj (Fin.ext heq.symm)
      simp [hj, Vector.get_eq_getElem, Vector.getElem_set_ne _ _ hne]

/-- Together, the taken positions and the unmarked ones are all positions. -/
theorem append_perm (h : Marks marked taken) :
    (taken ++ (List.finRange length).filter fun i ↦ !marked.get i).Perm (List.finRange length) := by
  have htaken : taken.Perm ((List.finRange length).filter marked.get) := by
    rw [List.perm_ext_iff_of_nodup h.nodup ((List.nodup_finRange length).filter _)]
    simp [← h.mem_iff]
  exact (htaken.append_right _).trans (List.filter_append_perm _ _)

end Marks

theorem isSample_drawDistinct {fuel missing : Nat} {marked : Vector Bool length}
    {taken : List (Fin length)} (h : Marks marked taken) (hle : taken.length + missing ≤ length)
    (s : Keystream) :
    IsSample (taken.length + missing) (drawDistinct fuel missing marked taken s).1 := by
  fun_induction drawDistinct fuel missing marked taken s with
  | case1 fuel marked taken s => exact ⟨List.nodup_reverse.mpr h.nodup, List.length_reverse⟩
  | case2 missing marked taken s =>
    -- The draws have run out, and the rest is taken from the front.
    have hperm : (taken ++ (List.finRange length).filter fun i ↦ !marked[i]).Perm
        (List.finRange length) := h.append_perm
    have hfree : missing ≤ ((List.finRange length).filter fun i ↦ !marked[i]).length := by
      have hall := hperm.length_eq
      rw [List.length_append, List.length_finRange] at hall
      omega
    constructor
    · have hsub := (List.take_sublist missing ((List.finRange length).filter fun i ↦ !marked[i]))
      have hnodup := hperm.nodup_iff.mpr (List.nodup_finRange length)
      exact (((List.reverse_perm taken).append_right _).nodup_iff).mpr
        (hnodup.sublist (hsub.append_left taken))
    · rw [List.length_append, List.length_reverse, List.length_take, Nat.min_eq_left hfree]
  | case3 fuel missing marked taken s hlength i s' hdraw position hmarked ih => exact ih h hle
  | case4 fuel missing marked taken s hlength i s' hdraw position hmarked ih =>
    obtain ⟨hnodup, hcount⟩ := ih (h.cons hmarked) (by rw [List.length_cons]; omega)
    refine ⟨hnodup, hcount.trans ?_⟩
    rw [List.length_cons]
    omega
  | case5 => omega

theorem isSample_sampleRejecting {amount : Nat} (h : amount ≤ length) (s : Keystream) :
    IsSample amount (sampleRejecting length amount s).1 := by
  have hnone : Marks (Vector.replicate length false) [] := ⟨.nil, by simp⟩
  have hcount : ([] : List (Fin length)).length + min amount length = amount := by simp [h]
  have htaken := @isSample_drawDistinct length (64 * amount + 64) (min amount length) _ _ hnone
    (by simp) s
  exact ⟨htaken.nodup, htaken.length_eq.trans hcount⟩

/-! ### Samples -/

/-- The keystream gives as many positions as it is asked for, and none twice. -/
theorem samplesDistinct [Scalar α] : (draws : Draws Keystream α).SamplesDistinct := by
  intro length amount h s
  show IsSample amount (sample length amount s).1
  rw [sample]
  split
  · split
    · exact isSample_sampleInPlace h s
    · exact isSample_sampleGrowing h s
  · split
    · exact isSample_sampleInPlace h s
    · exact isSample_sampleRejecting h s

end Keystream

end OutlierScoring
