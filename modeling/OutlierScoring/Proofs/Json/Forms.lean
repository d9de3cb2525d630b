import OutlierScoring.Json.Shaped
import OutlierScoring.Proofs.Json.Documents
import OutlierScoring.Proofs.Number.Lawful

/-!
# Values are read back

Whether a value can be read back from its own document depends on the value: a number has to be
finite, a natural below `2 ^ 64`. `Reads r b ok` says that a reader gives `b` and nothing else, and
gives it exactly where `ok` holds. The rules for it follow the way in which readers are composed, so
that for every kind of value the exact condition is put together from those of its parts.
-/

namespace OutlierScoring.Json

variable {β γ : Type} {b : β} {c : γ} {ok ok' : Prop}

/-- The only value that a reader can give is `b`, which it gives exactly if `ok`. -/
def Reads (r : Option β) (b : β) (ok : Prop) : Prop := ∀ b', r = some b' ↔ ok ∧ b' = b

/-! ### Rules -/

theorem reads_some (b : β) : Reads (some b) b True :=
  fun b' ↦ by rw [Option.some.injEq, true_and, eq_comm]

theorem Reads.eq_some {r : Option β} (h : Reads r b ok) (hok : ok) : r = some b :=
  (h b).mpr ⟨hok, rfl⟩

theorem Reads.eq_none {r : Option β} (h : Reads r b ok) (hok : ¬ok) : r = none := by
  rcases hr : r with _ | b'
  · rfl
  · exact absurd ((h b').mp hr).1 hok

theorem reads_of_eq {r : Option β} (h : ok → r = some b) (hn : ¬ok → r = none) : Reads r b ok := by
  intro b'
  by_cases hok : ok
  · rw [h hok, Option.some.injEq, eq_comm]
    exact ⟨fun heq ↦ ⟨hok, heq⟩, fun heq ↦ heq.2⟩
  · rw [hn hok]
    exact ⟨nofun, fun heq ↦ absurd heq.1 hok⟩

theorem Reads.congr {r : Option β} (h : Reads r b ok) (hiff : ok ↔ ok') : Reads r b ok' :=
  fun b' ↦ by rw [h b', hiff]

theorem Reads.bind {r : Option β} {f : β → Option γ} (h : Reads r b ok) (hf : Reads (f b) c ok') :
    Reads (r >>= f) c (ok ∧ ok') := by
  show Reads (r.bind f) c (ok ∧ ok')
  refine reads_of_eq ?_ ?_
  · rintro ⟨hok, hok'⟩
    rw [h.eq_some hok, Option.bind_some, hf.eq_some hok']
  · intro hn
    by_cases hok : ok
    · rw [h.eq_some hok, Option.bind_some, hf.eq_none fun hok' ↦ hn ⟨hok, hok'⟩]
    · rw [h.eq_none hok, Option.bind_none]

theorem Reads.map {r : Option β} (f : β → γ) (h : Reads r b ok) : Reads (r.map f) (f b) ok := by
  refine reads_of_eq ?_ ?_
  · intro hok
    rw [h.eq_some hok, Option.map_some]
  · intro hn
    rw [h.eq_none hn, Option.map_none]

/-- Values that are read one by one. -/
theorem reads_mapM {write : β → Json} {read : Json → Option β} {ok : β → Prop} (xs : List β)
    (h : ∀ x ∈ xs, Reads (read (write x).canonical) x (ok x)) :
    Reads ((xs.map fun x ↦ (write x).canonical).mapM read) xs (∀ x ∈ xs, ok x) := by
  induction xs with
  | nil => exact (reads_some []).congr (by simp)
  | cons x xs ih =>
    rw [List.map_cons, List.mapM_cons]
    have hxs := ih fun y hy ↦ h y (List.mem_cons_of_mem _ hy)
    have hx := h x List.mem_cons_self
    refine Reads.congr (Reads.bind hx (Reads.bind hxs (reads_some _))) ?_
    simp

/-! ### Single values -/

theorem canonicalItems_eq_map (items : List Json) : canonicalItems items = items.map canonical := by
  induction items with
  | nil => rfl
  | cons item items ih => rw [canonicalItems, ih, List.map_cons]

theorem reads_nat (n : Nat) : Reads (nat? (nat n).canonical) n (n < UInt64.size) := by
  show Reads (if (0 : Int) ≤ n ∧ (n : Int) < UInt64.size then some (n : Int).toNat else none) n _
  refine reads_of_eq ?_ ?_
  · intro hn
    rw [if_pos ⟨Int.natCast_nonneg n, by exact_mod_cast hn⟩, Int.toNat_natCast]
  · intro hn
    rw [if_neg fun h ↦ hn (by exact_mod_cast h.2)]

theorem reads_text (s : String) : Reads (string? (Json.text s).canonical) s True := reads_some s

theorem reads_optional (write : β → Json) {read : Json → Option β} (x? : Option β)
    (hwrite : ∀ x ∈ x?, (write x).canonical ≠ .null) {ok : β → Prop}
    (h : ∀ x ∈ x?, Reads (read (write x).canonical) x (ok x)) :
    Reads (optional? read (optional write x?).canonical) x? (∀ x ∈ x?, ok x) := by
  rcases x? with _ | x
  · exact (reads_some none).congr (by simp)
  · have hread : optional? read (write x).canonical = (read (write x).canonical).map some := by
      unfold optional?
      split
      · rename_i heq
        exact absurd heq (hwrite x rfl)
      · rfl
    show Reads (optional? read (write x).canonical) (some x) _
    rw [hread]
    exact ((h x rfl).map some).congr (by simp)

theorem reads_list (write : β → Json) (read : Nat → Json → Option β) {ok : β → Prop} (depth : Nat)
    (xs : List β) (h : ∀ x ∈ xs, Reads (read depth (write x).canonical) x (ok x)) :
    Reads (list? (depth + 1) read (Json.list (xs.map write)).canonical) xs (∀ x ∈ xs, ok x) := by
  show Reads ((canonicalItems (xs.map write)).mapM (read depth)) xs _
  rw [canonicalItems_eq_map, List.map_map]
  exact reads_mapM xs h

theorem reads_texts (depth : Nat) (texts : List String) :
    Reads (Form.ofJson? (depth + 1) (Form.toJson texts).canonical) texts True :=
  (reads_list text (fun _ ↦ string?) depth texts fun s _ ↦ reads_text s).congr (by simp)

section Scalars

variable {α : Type} [Scalar α] [Numeral α] [LawfulNumeral α]

theorem reads_scalar (x : α) :
    Reads (scalar? (scalar x).canonical) x (Scalar.isFinite x = true) := by
  rw [scalar]
  rcases hview : Numeral.view x with _ | negative | d
  · refine reads_of_eq (fun hfinite ↦ ?_) fun _ ↦ rfl
    obtain ⟨d, hd⟩ := (LawfulNumeral.isFinite_iff x).mp hfinite
    exact absurd (hview.symm.trans hd) nofun
  · refine reads_of_eq (fun hfinite ↦ ?_) fun _ ↦ rfl
    obtain ⟨d, hd⟩ := (LawfulNumeral.isFinite_iff x).mp hfinite
    exact absurd (hview.symm.trans hd) nofun
  · have hdecimal : Numeral.ofDecimal d.trim = x := LawfulNumeral.ofDecimal_trim x d hview
    have hfinite : Scalar.isFinite x = true := (LawfulNumeral.isFinite_iff x).mpr ⟨d, hview⟩
    refine reads_of_eq (fun _ ↦ ?_) fun hn ↦ absurd hfinite hn
    show (if Scalar.isFinite (Numeral.ofDecimal d.trim : α) then
      some (Numeral.ofDecimal d.trim) else none) = some x
    rw [hdecimal, if_pos hfinite]

end Scalars

/-! ### Records -/

theorem canonicalMembers_eq_map (members : List (String × Json)) :
    canonicalMembers members = members.map fun member ↦ (member.1, member.2.canonical) := by
  induction members with
  | nil => rfl
  | cons member members ih =>
    obtain ⟨name, value⟩ := member
    rw [canonicalMembers, ih, List.map_cons]

/-- Where no name is repeated, every member is found under its name. -/
theorem member?_of_mem {members : List (String × Json)} (hnodup : (members.map (·.1)).Nodup)
    {member : String × Json} (h : member ∈ members) :
    member? members member.1 = some (some member.2) := by
  have hfilter : members.filter (·.1 == member.1) = [member] := by
    induction members with
    | nil => exact absurd h List.not_mem_nil
    | cons first members ih =>
      rw [List.map_cons, List.nodup_cons] at hnodup
      rcases List.mem_cons.mp h with rfl | h
      · rw [List.filter_cons_of_pos (by simp), List.filter_eq_nil_iff.mpr]
        intro other hother hname
        exact hnodup.1 (List.mem_map.mpr ⟨other, hother, by simpa using hname⟩)
      · rw [List.filter_cons_of_neg, ih hnodup.2 h]
        intro hname
        exact hnodup.1 (List.mem_map.mpr
          ⟨member, h, (by simpa using hname : first.1 = member.1).symm⟩)
  rw [member?, hfilter]

/-- The members of a record that is written by its fields are its fields. -/
theorem fields?_record (names : List String) {members : List (String × Json)}
    (h : members.map (·.1) = names) (hnodup : names.Nodup) (depth : Nat) :
    fields? names (depth + 1) (Json.record members).canonical =
      some (depth, members.map fun member ↦ some member.2.canonical) := by
  have hnames : (canonicalMembers members).map (·.1) = names := by
    rw [canonicalMembers_eq_map, List.map_map, ← h]
    rfl
  -- The names are looked up among all members, so the induction is on a part of them.
  have hmem : ∀ sub ⊆ canonicalMembers members,
      (sub.map (·.1)).mapM (member? (canonicalMembers members)) =
        some (sub.map fun member ↦ some member.2) := by
    intro sub hsub
    induction sub with
    | nil => rfl
    | cons member sub ih =>
      rw [List.map_cons, List.mapM_cons, member?_of_mem (hnames ▸ hnodup) (hsub List.mem_cons_self),
        ih (List.subset_of_cons_subset hsub)]
      rfl
  have hall := hmem _ (List.Subset.refl _)
  rw [hnames] at hall
  show (names.mapM (member? (canonicalMembers members))).map (depth, ·) = _
  rw [hall, canonicalMembers_eq_map, List.map_map]
  rfl

/-! ### Nesting -/

theorem nestingItems_le {items : List Json} {n : Nat} (h : ∀ item ∈ items, item.nesting ≤ n) :
    nestingItems items ≤ n := by
  induction items with
  | nil => exact Nat.zero_le n
  | cons item items ih =>
    rw [nestingItems]
    exact Nat.max_le.mpr ⟨h item List.mem_cons_self, ih fun j hj ↦ h j (List.mem_cons_of_mem _ hj)⟩

theorem nestingMembers_le {members : List (String × Json)} {n : Nat}
    (h : ∀ member ∈ members, member.2.nesting ≤ n) : nestingMembers members ≤ n := by
  induction members with
  | nil => exact Nat.zero_le n
  | cons member members ih =>
    rw [nestingMembers]
    exact Nat.max_le.mpr
      ⟨h member List.mem_cons_self, ih fun m hm ↦ h m (List.mem_cons_of_mem _ hm)⟩

/-- A list of values is one level above them. -/
theorem nesting_list_le {write : β → Json} {xs : List β} {n : Nat}
    (h : ∀ x ∈ xs, (write x).nesting ≤ n) : (Json.list (xs.map write)).nesting ≤ n + 1 := by
  refine Nat.succ_le_succ (nestingItems_le fun item hitem ↦ ?_)
  obtain ⟨x, hx, rfl⟩ := List.mem_map.mp hitem
  exact h x hx

/-- A record is one level above its members. -/
theorem nesting_record_le {members : List (String × Json)} {n : Nat}
    (h : ∀ member ∈ members, member.2.nesting ≤ n) : (Json.record members).nesting ≤ n + 1 :=
  Nat.succ_le_succ (nestingMembers_le h)

@[simp]
theorem nesting_scalar {α : Type} [Numeral α] (x : α) : (scalar x).nesting = 0 := by
  rw [scalar]
  split <;> rfl

/-! ### Texts of values -/

section Texts

variable [Form β]

theorem reads_spell (blanks : Blanks)
    (h : Reads (Form.ofJson? depthLimit (Form.toJson b).canonical) b ok)
    (hnesting : ok → (Form.toJson b).nesting ≤ maxNesting) :
    Reads ((parse? (spell blanks 0 [] (Form.toJson b))).bind (Form.ofJson? depthLimit)) b ok := by
  refine reads_of_eq ?_ ?_
  · intro hok
    rw [parse?_spell _ _ (hnesting hok), Option.bind_some, h.eq_some hok]
  · intro hn
    rcases hj : parse? (spell blanks 0 [] (Form.toJson b)) with _ | j
    · rfl
    · rw [eq_canonical_of_parse? _ _ hj, Option.bind_some, h.eq_none hn]

/-- What is read back from the text of a value is what is read back from its document. -/
theorem reads_compact (h : Reads (Form.ofJson? depthLimit (Form.toJson b).canonical) b ok)
    (hnesting : ok → (Form.toJson b).nesting ≤ maxNesting) :
    Reads (Form.read? (Form.toJson b).compact) b ok := by
  rw [Form.read?, compact, String.toList_ofList, writeCompact_eq_spell 0]
  exact reads_spell _ h hnesting

theorem reads_pretty (h : Reads (Form.ofJson? depthLimit (Form.toJson b).canonical) b ok)
    (hnesting : ok → (Form.toJson b).nesting ≤ maxNesting) :
    Reads (Form.read? (Form.toJson b).pretty) b ok := by
  rw [Form.read?, pretty, String.toList_ofList, writePretty_eq_spell]
  exact reads_spell _ h hnesting

end Texts

end OutlierScoring.Json
