import OutlierScoring.Proofs.Json.Layouts
import OutlierScoring.Proofs.Json.Numbers
import OutlierScoring.Proofs.Json.Strings

/-!
# Documents are read back

A document that was written, in either layout, is read back as `Json.canonical` of it: trailing
zeros of reals are gone, and where a string is garbled there is `null`.

The proof is by induction on the document, one theorem for documents, one for the further items of
a list and one for the further members of a record (`value?_spell`, `afterItem?_spellItems`,
`afterMember?_spellMembers`). The fuel that they ask for is counted by `weight`, which no text of a
document falls short of.
-/

namespace OutlierScoring.Json

variable (blanks : Blanks)

/-! ### What is read back -/

mutual

/-- The document that is read back for a document. -/
def canonical : Json → Json
  | .null => .null
  | .bool b => .bool b
  | .number n => .number n.canonical
  | .text s => .text s
  | .garbled => .null
  | .list items => .list (canonicalItems items)
  | .record members => .record (canonicalMembers members)

/-- The items that are read back for the items of a list. -/
def canonicalItems : List Json → List Json
  | [] => []
  | item :: items => canonical item :: canonicalItems items

/-- The members that are read back for the members of a record. -/
def canonicalMembers : List (String × Json) → List (String × Json)
  | [] => []
  | (name, value) :: members => (name, canonical value) :: canonicalMembers members

end

mutual

/-- How many levels of lists and records a document has. -/
def nesting : Json → Nat
  | .list items => nestingItems items + 1
  | .record members => nestingMembers members + 1
  | _ => 0

/-- The levels of the items of a list. -/
def nestingItems : List Json → Nat
  | [] => 0
  | item :: items => max (nesting item) (nestingItems items)

/-- The levels of the members of a record. -/
def nestingMembers : List (String × Json) → Nat
  | [] => 0
  | (_, value) :: members => max (nesting value) (nestingMembers members)

end

mutual

/-- The fuel that reading a document takes. -/
def weight : Json → Nat
  | .list items => 1 + weightItems items
  | .record members => 1 + weightMembers members
  | _ => 1

/-- The fuel that reading the items of a list takes. -/
def weightItems : List Json → Nat
  | [] => 0
  | item :: items => 1 + weight item + weightItems items

/-- The fuel that reading the members of a record takes. -/
def weightMembers : List (String × Json) → Nat
  | [] => 0
  | (_, value) :: members => 1 + weight value + weightMembers members

end

/-! ### Fuel -/

theorem length_writeText (s : String) (rest : List Char) :
    rest.length < (writeText s rest).length := by
  have hchar : ∀ c tail, tail.length ≤ (writeChar c tail).length := by
    intro c tail
    unfold writeChar
    split <;> try split
    all_goals simp <;> omega
  have htext : ∀ s : List Char, rest.length ≤ (s.foldr writeChar ('"' :: rest)).length := by
    intro s
    induction s with
    | nil => simp
    | cons c s ih => exact ih.trans (hchar c _)
  exact Nat.lt_succ_of_le (htext s.toList)

mutual

/-- The text of a document is long enough for its fuel. -/
theorem weight_le_length (level : Nat) (rest : List Char) :
    ∀ j, weight j + rest.length ≤ (spell blanks level rest j).length
  | .null | .garbled => by simp [weight, spell, put]; omega
  | .bool b => by cases b <;> simp [weight, spell, put] <;> omega
  | .number n => by
    obtain ⟨c, tail, htext, -⟩ := exists_write_eq_cons n
    simp only [weight, spell, put, htext, List.length_append, List.length_cons]
    omega
  | .text s => by
    have := length_writeText s rest
    simp only [weight, spell]
    omega
  | .list [] | .record [] => by simp [weight, weightItems, weightMembers, spell]; omega
  | .list (item :: items) => by
    have hitem := weight_le_length (level + 1) (spellItems blanks level rest items) item
    have hitems := weightItems_le_length level rest items
    simp only [weight, weightItems, spell, List.length_cons, List.length_append]
    omega
  | .record ((name, value) :: members) => by
    have hvalue := weight_le_length (level + 1) (spellMembers blanks level rest members) value
    have hmembers := weightMembers_le_length level rest members
    have hname := length_writeText name (':' :: (blanks.afterColon ++
      spell blanks (level + 1) (spellMembers blanks level rest members) value))
    simp only [weight, weightMembers, spell, List.length_cons, List.length_append] at hname ⊢
    omega

theorem weightItems_le_length (level : Nat) (rest : List Char) :
    ∀ items, weightItems items + rest.length < (spellItems blanks level rest items).length
  | [] => by simp [weightItems, spellItems]; omega
  | item :: items => by
    have hitem := weight_le_length (level + 1) (spellItems blanks level rest items) item
    have hitems := weightItems_le_length level rest items
    simp only [weightItems, spellItems, List.length_cons, List.length_append]
    omega

theorem weightMembers_le_length (level : Nat) (rest : List Char) :
    ∀ members, weightMembers members + rest.length < (spellMembers blanks level rest members).length
  | [] => by simp [weightMembers, spellMembers]; omega
  | (name, value) :: members => by
    have hvalue := weight_le_length (level + 1) (spellMembers blanks level rest members) value
    have hmembers := weightMembers_le_length level rest members
    have hname := length_writeText name (':' :: (blanks.afterColon ++
      spell blanks (level + 1) (spellMembers blanks level rest members) value))
    simp only [weightMembers, spellMembers, List.length_cons, List.length_append] at hname ⊢
    omega

end

/-! ### Blanks -/

theorem skipSpace_append {gap : List Char} (h : ∀ c ∈ gap, isSpace c = true) (rest : List Char) :
    skipSpace (gap ++ rest) = skipSpace rest :=
  List.dropWhile_append_of_pos h

theorem skipSpace_cons {c : Char} (h : isSpace c = false) (rest : List Char) :
    skipSpace (c :: rest) = c :: rest := by
  simp [skipSpace, h]

/-- A character that a document can start with. -/
structure Starts (c : Char) : Prop where
  isSpace_eq : isSpace c = false
  ne_bracket : c ≠ ']'
  ne_brace : c ≠ '\x7d'

theorem eq_of_isSpace {c : Char} (h : isSpace c = true) :
    c = ' ' ∨ c = '\n' ∨ c = '\t' ∨ c = '\r' := by
  simpa [isSpace, or_assoc] using h

theorem starts_of_sign_or_digit {c : Char} (h : c = '-' ∨ c.isDigit = true) : Starts c := by
  rcases h with rfl | h
  · exact ⟨by decide, by decide, by decide⟩
  · refine ⟨?_, ?_, ?_⟩
    · rcases hspace : isSpace c with _ | _
      · rfl
      · rcases eq_of_isSpace hspace with rfl | rfl | rfl | rfl <;> exact absurd h (by decide)
    · rintro rfl
      exact absurd h (by decide)
    · rintro rfl
      exact absurd h (by decide)

/-- The text of a document starts with one of its own characters. -/
theorem exists_spell_eq_cons (level : Nat) (rest : List Char) (j : Json) :
    ∃ c tail, spell blanks level rest j = c :: tail ∧ Starts c := by
  rcases j with _ | b | n | s | _ | items | members
  · exact ⟨'n', _, rfl, by decide, by decide, by decide⟩
  · rcases b with _ | _
    · exact ⟨'f', _, rfl, by decide, by decide, by decide⟩
    · exact ⟨'t', _, rfl, by decide, by decide, by decide⟩
  · obtain ⟨c, tail, htext, hc⟩ := exists_write_eq_cons n
    exact ⟨c, tail ++ rest, by rw [spell, put, htext]; rfl, starts_of_sign_or_digit hc⟩
  · exact ⟨'"', _, rfl, by decide, by decide, by decide⟩
  · exact ⟨'n', _, rfl, by decide, by decide, by decide⟩
  · rcases items with _ | ⟨item, items⟩
    · exact ⟨'[', _, by rw [spell], by decide, by decide, by decide⟩
    · exact ⟨'[', _, by rw [spell], by decide, by decide, by decide⟩
  · rcases members with _ | ⟨⟨name, value⟩, members⟩
    · exact ⟨'\x7b', _, by rw [spell], by decide, by decide, by decide⟩
    · exact ⟨'\x7b', _, by rw [spell], by decide, by decide, by decide⟩

theorem skipSpace_spell {gap : List Char} (h : ∀ c ∈ gap, isSpace c = true) (level : Nat)
    (rest : List Char) (j : Json) :
    skipSpace (gap ++ spell blanks level rest j) = spell blanks level rest j := by
  obtain ⟨c, tail, htext, hc⟩ := exists_spell_eq_cons blanks level rest j
  rw [skipSpace_append h, htext, skipSpace_cons hc.isSpace_eq]

/-- What follows an item does not continue a number. -/
theorem stops_append {gap rest : List Char} (h : ∀ c ∈ gap, isSpace c = true) (hrest : Stops rest) :
    Stops (gap ++ rest) := by
  rcases gap with _ | ⟨c, gap⟩
  · exact hrest
  · refine stops_cons ?_
    rcases eq_of_isSpace (h c List.mem_cons_self) with rfl | rfl | rfl | rfl <;> decide

theorem stops_spellItems (level : Nat) (rest : List Char) (items : List Json) :
    Stops (spellItems blanks level rest items) := by
  rcases items with _ | ⟨item, items⟩
  · rw [spellItems]
    exact stops_append (blanks.isSpace_newLine _) (stops_cons (by decide))
  · rw [spellItems]
    exact stops_cons (by decide)

theorem stops_spellMembers (level : Nat) (rest : List Char) (members : List (String × Json)) :
    Stops (spellMembers blanks level rest members) := by
  rcases members with _ | ⟨⟨name, value⟩, members⟩
  · rw [spellMembers]
    exact stops_append (blanks.isSpace_newLine _) (stops_cons (by decide))
  · rw [spellMembers]
    exact stops_cons (by decide)

/-! ### Reading what was written -/

/-- Goes on after an item of a list. -/
def afterItem? (fuel nesting : Nat) (read : List Json) (s : List Char) :
    Option (Json × List Char) :=
  match skipSpace s with
  | ',' :: rest => items? fuel nesting read (skipSpace rest)
  | ']' :: rest => some (.list read.reverse, rest)
  | _ => none

/-- Goes on after a member of a record. -/
def afterMember? (fuel nesting : Nat) (read : List (String × Json)) (s : List Char) :
    Option (Json × List Char) :=
  match skipSpace s with
  | ',' :: rest => members? fuel nesting read (skipSpace rest)
  | '\x7d' :: rest => some (.record read.reverse, rest)
  | _ => none

theorem items?_of_value? {fuel nesting : Nat} {read : List Json} {s rest : List Char} {item : Json}
    (h : value? fuel nesting s = some (item, rest)) :
    items? (fuel + 1) nesting read s = afterItem? fuel nesting (item :: read) rest := by
  rw [items?, h]
  rfl

theorem members?_of_value? {fuel nesting : Nat} (name : String) (read : List (String × Json))
    {s rest : List Char} {value : Json}
    (h : value? fuel nesting (skipSpace s) = some (value, rest)) :
    members? (fuel + 1) nesting read (writeText name (':' :: s)) =
      afterMember? fuel nesting ((name, value) :: read) rest := by
  show members? (fuel + 1) nesting read ('"' :: name.toList.foldr writeChar ('"' :: ':' :: s)) = _
  rw [members?, text?_foldr]
  simp only [skipSpace_cons (show isSpace ':' = false by decide), h]
  rfl

theorem value?_number {c : Char} {tail : List Char} (h : c = '-' ∨ c.isDigit = true)
    (fuel nesting : Nat) :
    value? (fuel + 1) nesting (c :: tail) =
      (number? (c :: tail)).map fun (n, rest) ↦ (.number n, rest) := by
  have hne : ∀ {d : Char} {rest : List Char}, d ≠ '-' → d.isDigit = false →
      c :: tail ≠ d :: rest := by
    intro d rest hminus hdigit heq
    obtain rfl := (List.cons.inj heq).1
    rcases h with h | h
    · exact hminus h
    · exact absurd (h.symm.trans hdigit) (by decide)
  rw [value?] <;> exact fun rest ↦ hne (by decide) (by decide)

mutual

/-- A document that was written is read back, whatever follows it. -/
theorem value?_spell (level : Nat) (rest : List Char) : ∀ (j : Json) (fuel nesting : Nat),
    weight j ≤ fuel → j.nesting ≤ nesting → Stops rest →
      value? fuel nesting (spell blanks level rest j) = some (j.canonical, rest)
  | .null, fuel + 1, nesting, _, _, _ => by
    rfl
  | .bool true, fuel + 1, nesting, _, _, _ => by
    rfl
  | .bool false, fuel + 1, nesting, _, _, _ => by
    rfl
  | .number n, fuel + 1, nesting, _, _, hrest => by
    obtain ⟨c, tail, htext, hc⟩ := exists_write_eq_cons n
    have hnumber := number?_write n hrest
    rw [htext, List.cons_append] at hnumber
    rw [spell, put, htext, List.cons_append, value?_number hc, hnumber]
    rfl
  | .text s, fuel + 1, nesting, _, _, _ => by
    rw [spell, writeText, value?, text?_foldr]
    rfl
  | .garbled, fuel + 1, nesting, _, _, _ => by
    rfl
  | .list [], fuel + 1, nesting + 1, _, _, _ => by
    rfl
  | .list (item :: items), 0, _, hfuel, _, _ => by
    simp [weight] at hfuel
  | .list (item :: items), 1, _, hfuel, _, _ => by
    simp [weight, weightItems] at hfuel
  | .list (item :: items), fuel + 2, nesting + 1, hfuel, hnesting, hrest => by
    simp only [weight, weightItems] at hfuel
    simp only [Json.nesting, nestingItems] at hnesting
    -- The first item is read up to the rest of the list, where its text stops.
    have hitem := value?_spell (level + 1) (spellItems blanks level rest items) item fuel
      nesting (by omega) (by omega) (stops_spellItems blanks level rest items)
    have hitems := afterItem?_spellItems level rest items fuel nesting
      [item.canonical] (by omega) (by omega)
    obtain ⟨c, tail, htext, hc⟩ := exists_spell_eq_cons blanks (level + 1)
      (spellItems blanks level rest items) item
    rw [spell, value?, skipSpace_spell blanks (blanks.isSpace_newLine _)]
    rw [htext] at hitem ⊢
    split
    · rename_i heq
      exact absurd (List.cons.inj heq).1 hc.ne_bracket
    · rw [items?_of_value? hitem, hitems]
      rfl
  | .record [], fuel + 1, nesting + 1, _, _, _ => by
    rfl
  | .record (_ :: _), 0, _, hfuel, _, _ => by
    simp [weight] at hfuel
  | .record ((_, _) :: _), 1, _, hfuel, _, _ => by
    simp [weight, weightMembers] at hfuel
  | .record ((name, value) :: members), fuel + 2, nesting + 1, hfuel, hnesting, hrest => by
    simp only [weight, weightMembers] at hfuel
    simp only [Json.nesting, nestingMembers] at hnesting
    have hvalue := value?_spell (level + 1) (spellMembers blanks level rest members) value
      fuel nesting (by omega) (by omega) (stops_spellMembers blanks level rest members)
    have hmembers := afterMember?_spellMembers level rest members fuel nesting
      [(name, value.canonical)] (by omega) (by omega)
    rw [← skipSpace_spell blanks blanks.isSpace_afterColon] at hvalue
    have hread := members?_of_value? name [] hvalue
    rw [spell, value?, skipSpace_append (blanks.isSpace_newLine _),
      writeText, skipSpace_cons (by decide)]
    exact hread.trans hmembers

theorem afterItem?_spellItems (level : Nat) (rest : List Char) : ∀ (items : List Json)
    (fuel nesting : Nat) (read : List Json), weightItems items ≤ fuel →
      nestingItems items ≤ nesting →
        afterItem? fuel nesting read (spellItems blanks level rest items) =
          some (.list (read.reverse ++ canonicalItems items), rest)
  | [], fuel, nesting, read, _, _ => by
    rw [afterItem?, spellItems, skipSpace_append (blanks.isSpace_newLine _),
      skipSpace_cons (by decide), canonicalItems, List.append_nil]
    rfl
  | item :: items, 0, nesting, read, hfuel, hnesting => by
    simp [weightItems] at hfuel
  | item :: items, fuel + 1, nesting, read, hfuel, hnesting => by
    simp only [weightItems] at hfuel
    simp only [nestingItems] at hnesting
    have hitem := value?_spell (level + 1) (spellItems blanks level rest items) item fuel
      nesting (by omega) (by omega) (stops_spellItems blanks level rest items)
    have hitems := afterItem?_spellItems level rest items fuel nesting
      (item.canonical :: read) (by omega) (by omega)
    rw [afterItem?, spellItems, skipSpace_cons (by decide)]
    simp only
    rw [skipSpace_spell blanks (blanks.isSpace_newLine _), items?_of_value? hitem, hitems,
      canonicalItems, List.reverse_cons, List.append_assoc]
    rfl

theorem afterMember?_spellMembers (level : Nat) (rest : List Char) :
    ∀ (members : List (String × Json)) (fuel nesting : Nat) (read : List (String × Json)),
      weightMembers members ≤ fuel → nestingMembers members ≤ nesting →
        afterMember? fuel nesting read (spellMembers blanks level rest members) =
          some (.record (read.reverse ++ canonicalMembers members), rest)
  | [], fuel, nesting, read, _, _ => by
    rw [afterMember?, spellMembers, skipSpace_append (blanks.isSpace_newLine _),
      skipSpace_cons (by decide), canonicalMembers, List.append_nil]
    rfl
  | (_, _) :: _, 0, nesting, read, hfuel, hnesting => by
    simp [weightMembers] at hfuel
  | (name, value) :: members, fuel + 1, nesting, read, hfuel, hnesting => by
    simp only [weightMembers] at hfuel
    simp only [nestingMembers] at hnesting
    have hvalue := value?_spell (level + 1) (spellMembers blanks level rest members) value
      fuel nesting (by omega) (by omega) (stops_spellMembers blanks level rest members)
    have hmembers := afterMember?_spellMembers level rest members fuel nesting
      ((name, value.canonical) :: read) (by omega) (by omega)
    rw [← skipSpace_spell blanks blanks.isSpace_afterColon] at hvalue
    have hread := members?_of_value? name read hvalue
    rw [afterMember?, spellMembers, skipSpace_cons (by decide)]
    simp only
    rw [skipSpace_append (blanks.isSpace_newLine _), writeText, skipSpace_cons (by decide)]
    rw [← writeText, hread, hmembers, canonicalMembers, List.reverse_cons, List.append_assoc]
    rfl

end

theorem skipSpace_spell_self (level : Nat) (j : Json) :
    skipSpace (spell blanks level [] j) = spell blanks level [] j :=
  @skipSpace_spell blanks [] (fun _ hnil ↦ absurd hnil List.not_mem_nil) level [] j

/-- The text of a document, in any layout, is read back as the document. -/
theorem parse?_spell (j : Json) (h : j.nesting ≤ maxNesting) :
    parse? (spell blanks 0 [] j) = some j.canonical := by
  have hfuel := weight_le_length blanks 0 [] j
  have hread := value?_spell blanks 0 [] j ((spell blanks 0 [] j).length + 1) maxNesting
    (by simp only [List.length_nil] at hfuel; omega) h stops_nil
  rw [parse?, skipSpace_spell_self, hread]
  rfl

/-! ### Texts that nest too deep -/

/-- What is read with this fuel where lists and records may nest so deep is read where they may nest
deeper. -/
structure NestsDeeper (fuel : Nat) : Prop where
  value {n m : Nat} (h : n ≤ m) (s : List Char) (r : Json × List Char) :
    value? fuel n s = some r → value? fuel m s = some r
  items {n m : Nat} (h : n ≤ m) (read : List Json) (s : List Char) (r : Json × List Char) :
    items? fuel n read s = some r → items? fuel m read s = some r
  members {n m : Nat} (h : n ≤ m) (read : List (String × Json)) (s : List Char)
    (r : Json × List Char) : members? fuel n read s = some r → members? fuel m read s = some r

section NestsDeeper

variable {fuel n m : Nat} (ih : NestsDeeper fuel) (hle : n ≤ m) {s : List Char}
  {r : Json × List Char}

include ih hle

/-- Only a list and a record use up a level. -/
theorem NestsDeeper.value_succ (h : value? (fuel + 1) n s = some r) :
    value? (fuel + 1) m s = some r := by
  unfold value? at h ⊢
  split at h
  case h_5 rest =>
    rcases n with _ | n
    · exact absurd h nofun
    · obtain ⟨m, rfl⟩ : ∃ m', m = m' + 1 := ⟨m - 1, by omega⟩
      simp only at h ⊢
      split at h
      · exact h
      · exact ih.items (Nat.le_of_succ_le_succ hle) _ _ _ h
  case h_6 rest =>
    rcases n with _ | n
    · exact absurd h nofun
    · obtain ⟨m, rfl⟩ : ∃ m', m = m' + 1 := ⟨m - 1, by omega⟩
      simp only at h ⊢
      split at h
      · exact h
      · exact ih.members (Nat.le_of_succ_le_succ hle) _ _ _ h
  all_goals exact h

theorem NestsDeeper.items_succ {read : List Json} (h : items? (fuel + 1) n read s = some r) :
    items? (fuel + 1) m read s = some r := by
  rw [items?] at h ⊢
  rcases hitem : value? fuel n s with _ | ⟨item, rest⟩
  · rw [hitem] at h
    exact absurd h nofun
  · rw [ih.value hle _ _ hitem]
    rw [hitem] at h
    simp only at h ⊢
    split at h
    · exact ih.items hle _ _ _ h
    · exact h
    · exact absurd h nofun

theorem NestsDeeper.members_succ {read : List (String × Json)}
    (h : members? (fuel + 1) n read s = some r) : members? (fuel + 1) m read s = some r := by
  unfold members? at h ⊢
  split at h
  · split at h
    · simp only at h ⊢
      split at h
      · split at h
        · exact absurd h nofun
        · rename_i value rest hvalue
          rw [ih.value hle _ _ hvalue]
          simp only at h ⊢
          split at h
          · exact ih.members hle _ _ _ h
          · exact h
          · exact absurd h nofun
      · exact absurd h nofun
    · exact absurd h nofun
  · exact absurd h nofun

end NestsDeeper

theorem nestsDeeper (fuel : Nat) : NestsDeeper fuel := by
  induction fuel with
  | zero =>
    refine ⟨?_, ?_, ?_⟩
    · intro n m _ s r h
      exact absurd h (by rw [value?]; exact nofun)
    · intro n m _ read s r h
      exact absurd h (by rw [items?]; exact nofun)
    · intro n m _ read s r h
      exact absurd h (by rw [members?]; exact nofun)
  | succ fuel ih =>
    exact ⟨fun hle _ _ h ↦ ih.value_succ hle h, fun hle _ _ _ h ↦ ih.items_succ hle h,
      fun hle _ _ _ h ↦ ih.members_succ hle h⟩

/-- Even where a document nests too deep to be read, nothing else is read in its place. -/
theorem eq_canonical_of_parse? (j : Json) {j' : Json}
    (h : parse? (spell blanks 0 [] j) = some j') : j' = j.canonical := by
  have hfuel := weight_le_length blanks 0 [] j
  -- A reader that goes deep enough reads the document, and it reads all that this one reads.
  have hread := value?_spell blanks 0 [] j ((spell blanks 0 [] j).length + 1)
    (max maxNesting j.nesting) (by simp only [List.length_nil] at hfuel; omega)
    (Nat.le_max_right _ _) stops_nil
  rw [parse?, skipSpace_spell_self] at h
  rcases hvalue : value? ((spell blanks 0 [] j).length + 1) maxNesting (spell blanks 0 [] j)
    with _ | ⟨j'', rest⟩
  · rw [hvalue] at h
    exact absurd h nofun
  · rw [(nestsDeeper _).value (Nat.le_max_left _ _) _ _ hvalue] at hread
    obtain ⟨rfl, rfl⟩ := Prod.mk.inj (Option.some.inj hread)
    rw [hvalue] at h
    exact (Option.some.inj h).symm

end OutlierScoring.Json
