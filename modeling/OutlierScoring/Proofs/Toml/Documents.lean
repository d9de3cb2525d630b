import OutlierScoring.Proofs.Toml.Values

/-!
# Documents are read back

A text is read as a list of statements (`Toml.Reads`) piece by piece: headers, entries and empty
lines each for itself, and texts one after the other as their statements one after the other. The
text of a document is therefore read as its statements, with any of its sections, entries and empty
lines left out (`Selection.reads_write`), and statements with different keys are put together to the
tables that they were written for (`assemble?_flatMap_statements`).
-/

namespace OutlierScoring.Toml

variable {rest : List Char}

/-! ### Keys -/

/-- A key that can stand without quotes. -/
def IsBareKey (name : String) : Prop := name.toList ≠ [] ∧ ∀ c ∈ name.toList, isBare c = true

instance (name : String) : Decidable (IsBareKey name) :=
  decidable_of_iff (name.toList ≠ [] ∧ name.toList.all isBare = true)
    (and_congr_right' List.all_eq_true)

theorem skipSpace_cons {c : Char} (h : isSpace c = false) (rest : List Char) :
    skipSpace (c :: rest) = c :: rest := by
  rw [skipSpace, List.dropWhile_cons_of_neg (Bool.eq_false_iff.mp h)]

theorem IsBareKey.exists_cons {name : String} (h : IsBareKey name) :
    ∃ c tail, name.toList = c :: tail ∧ isBare c = true := by
  obtain ⟨c, tail, htail⟩ := List.exists_cons_of_ne_nil h.1
  exact ⟨c, tail, htail, h.2 c (htail ▸ List.mem_cons_self)⟩

theorem ne_of_isBare {c x : Char} (hc : isBare c = true) (hx : isBare x = false) : c ≠ x := by
  rintro rfl
  exact absurd hc (Bool.eq_false_iff.mp hx)

theorem isSpace_of_isBare {c : Char} (h : isBare c = true) : isSpace c = false := by
  have hblank : c ≠ ' ' := ne_of_isBare h (by decide)
  have htab : c ≠ '\t' := ne_of_isBare h (by decide)
  simp [isSpace, hblank, htab]

theorem simpleKey?_append {name : String} (h : IsBareKey name)
    (hrest : ∀ c ∈ rest.head?, isBare c = false) :
    simpleKey? (name.toList ++ rest) = some (name, rest) := by
  obtain ⟨c, tail, htail, hc⟩ := h.exists_cons
  have hspan := span_append h.2 hrest
  rw [simpleKey?, hspan]
  · split
    · rename_i heq
      exact absurd (Prod.mk.inj heq).1 h.1
    · rename_i heq
      obtain ⟨hname, rfl⟩ := Prod.mk.inj heq
      rw [← hname, String.ofList_toList]
  all_goals
    rw [htail]
    exact fun _ heq ↦ ne_of_isBare hc (by decide) (List.cons.inj heq).1

/-- A single key, up to the character that ends it. -/
theorem key?_append {name : String} (h : IsBareKey name)
    (hrest : ∀ c ∈ rest.head?, isBare c = false) (hpoint : (skipSpace rest).head? ≠ some '.') :
    key? (name.toList ++ rest) = some (([], name), skipSpace rest) := by
  have hskip : skipSpace (name.toList ++ rest) = name.toList ++ rest := by
    obtain ⟨c, tail, htail, hc⟩ := h.exists_cons
    rw [htail, List.cons_append, skipSpace_cons (isSpace_of_isBare hc)]
  have hparts : keyParts? nestingLimit (name.toList ++ rest) = some ([name], skipSpace rest) := by
    rw [nestingLimit, keyParts?, hskip, simpleKey?_append h hrest]
    simp only [bind, Option.bind]
    split
    · rename_i heq
      exact absurd (congrArg List.head? heq) hpoint
    · rfl
  rw [key?, hparts]
  rfl

/-! ### Lines -/

theorem entry?_write {key : String} {v : Toml} (hkey : IsBareKey key) (h : v.IsScalar)
    (rest : List Char) :
    entry? ((writeEntry (key, v)).toList ++ rest) =
      some (.entry [] key v.reread, '\n' :: rest) := by
  let value := (writeScalar v).toList ++ '\n' :: rest
  have htext : (writeEntry (key, v)).toList ++ rest =
      key.toList ++ (' ' :: '=' :: ' ' :: value) := by
    simp [writeEntry, value]
  have hkey : key? (key.toList ++ (' ' :: '=' :: ' ' :: value)) =
      some (([], key), '=' :: ' ' :: value) :=
    key?_append hkey (fun c hc ↦ by cases hc; decide) (by simp [skipSpace, isSpace])
  have hdrop : dropChar? '=' ('=' :: ' ' :: value) = some (' ' :: value) := rfl
  have hskip : skipSpace (' ' :: value) = value := skipSpace_writeScalar h _
  rw [htext, entry?, hkey]
  simp only [hdrop, hskip, value?_writeScalar h, value, bind, Option.bind]
  rfl

theorem header?_write {name : String} (hname : IsBareKey name) (rest : List Char) :
    header? ('[' :: (name.toList ++ ']' :: '\n' :: rest)) =
      some (.header [] name, '\n' :: rest) := by
  have hkey : key? (name.toList ++ ']' :: '\n' :: rest) = some (([], name), ']' :: '\n' :: rest) :=
    key?_append hname (fun c hc ↦ by cases hc; decide) (by simp [skipSpace, isSpace])
  obtain ⟨c, tail, htail, hc⟩ := hname.exists_cons
  rw [header?, hkey]
  · rfl
  · rw [htail]
    exact fun _ heq ↦ ne_of_isBare hc (by decide) (List.cons.inj heq).1

/-- The text is read as the statements, whatever follows it, and as many steps are left as the rest
needs. -/
structure Reads (text : List Char) (statements : List Statement) : Prop where
  head? : text.head? ≠ some '\uFEFF'
  exists_fuel (read : List Statement) (rest : List Char) (fuel : Nat)
    (hfuel : text.length + rest.length < fuel) :
    ∃ fuel', rest.length < fuel' ∧
      statementsFrom? read fuel (text ++ rest) =
        statementsFrom? (statements.reverse ++ read) fuel' rest

namespace Reads

variable {text text' : List Char} {statements statements' : List Statement}

theorem nil : Reads [] [] where
  head? := nofun
  exists_fuel _ _ fuel hfuel := ⟨fuel, by simpa using hfuel, rfl⟩

theorem append (h : Reads text statements) (h' : Reads text' statements') :
    Reads (text ++ text') (statements ++ statements') where
  head? := by
    rcases text with _ | ⟨c, text⟩
    · exact h'.head?
    · exact h.head?
  exists_fuel read rest fuel hfuel := by
    rw [List.length_append] at hfuel
    obtain ⟨fuel₁, hfuel₁, hread⟩ := h.exists_fuel read (text' ++ rest) fuel
      (by rw [List.length_append]; omega)
    rw [List.length_append] at hfuel₁
    obtain ⟨fuel₂, hfuel₂, hread'⟩ := h'.exists_fuel (statements.reverse ++ read) rest fuel₁ hfuel₁
    refine ⟨fuel₂, hfuel₂, ?_⟩
    rw [List.append_assoc, hread, hread', List.reverse_append, List.append_assoc]

theorem flatMap {β : Type} {texts : β → List Char} {statements : β → List Statement} (bs : List β)
    (h : ∀ b ∈ bs, Reads (texts b) (statements b)) :
    Reads (bs.flatMap texts) (bs.flatMap statements) := by
  induction bs with
  | nil => exact nil
  | cons b bs ih =>
    exact (h b List.mem_cons_self).append (ih fun b' hb' ↦ h b' (List.mem_cons_of_mem b hb'))

/-- A text that is read in a single step. -/
theorem of_step {c : Char} {text : List Char} (hc : c ≠ '\uFEFF')
    (h : ∀ read fuel rest, statementsFrom? read (fuel + 1) (c :: text ++ rest) =
      statementsFrom? (statements.reverse ++ read) fuel rest) : Reads (c :: text) statements where
  head? heq := hc (Option.some.inj heq)
  exists_fuel read rest fuel hfuel := by
    obtain ⟨fuel, rfl⟩ := Nat.exists_eq_add_one_of_ne_zero (show fuel ≠ 0 by omega)
    rw [List.length_cons] at hfuel
    exact ⟨fuel, by omega, h read fuel rest⟩

theorem emptyLine : Reads ['\n'] [] := of_step (by decide) fun _ _ _ ↦ rfl

theorem header {name : String} (hname : IsBareKey name) :
    Reads ("[" ++ name ++ "]\n").toList [.header [] name] := by
  have htext : ("[" ++ name ++ "]\n").toList = '[' :: (name.toList ++ [']', '\n']) := by simp
  rw [htext]
  refine of_step (by decide) fun read fuel rest ↦ ?_
  have hheader := header?_write hname rest
  rw [List.cons_append, List.append_assoc, statementsFrom?]
  simp only [skipSpace_cons (by decide : isSpace '[' = false), List.cons_append, List.nil_append,
    hheader]
  rfl

theorem entry {key : String} {v : Toml} (hkey : IsBareKey key) (hv : v.IsScalar) :
    Reads (writeEntry (key, v)).toList [.entry [] key v.reread] := by
  obtain ⟨c, tail, htail, hc⟩ := hkey.exists_cons
  obtain ⟨text, htext⟩ : ∃ text, (writeEntry (key, v)).toList = c :: text := by
    rw [writeEntry]
    simp [htail]
  rw [htext]
  refine of_step (ne_of_isBare hc (by decide)) fun read fuel rest ↦ ?_
  have hentry := entry?_write hkey hv rest
  rw [htext] at hentry
  rw [statementsFrom?, List.cons_append, skipSpace_cons (isSpace_of_isBare hc)]
  -- No other kind of line starts like a key.
  split
  · rename_i heq
    cases heq
  · rename_i heq
    exact absurd (List.cons.inj heq).1 (ne_of_isBare hc (by decide))
  · rename_i heq
    exact absurd (List.cons.inj heq).1 (ne_of_isBare hc (by decide))
  · rename_i heq
    exact absurd (List.cons.inj heq).1 (ne_of_isBare hc (by decide))
  · rename_i heq
    exact absurd (List.cons.inj heq).1 (ne_of_isBare hc (by decide))
  · rw [← List.cons_append, hentry]
    rfl

/-- What is read as statements up to its end holds these statements. -/
theorem statements?_eq (h : Reads text statements) :
    statements? (String.ofList text) = some statements := by
  obtain ⟨fuel, hfuel, hread⟩ := h.exists_fuel [] [] (text.length + 1) (by simp)
  obtain ⟨fuel, rfl⟩ := Nat.exists_eq_add_one_of_ne_zero (show fuel ≠ 0 by omega)
  rw [List.append_nil, List.append_nil] at hread
  have hend : statementsFrom? statements.reverse (fuel + 1) [] = some statements := by
    rw [statementsFrom?]
    exact congrArg some statements.reverse_reverse
  rw [statements?, String.toList_ofList]
  split
  · exact absurd rfl h.head?
  · exact hread.trans hend

end Reads

/-! ### Documents -/

/-- The statements of a section, as they are read. -/
def statementsOf (part : String × Entries) : List Statement :=
  .header [] part.1 :: part.2.map fun entry ↦ .entry [] entry.1 entry.2.reread

/-- The entries of a section can be written and read. -/
structure Entries.IsWritable (entries : Entries) : Prop where
  isBareKey : ∀ key ∈ entries.map Prod.fst, IsBareKey key
  isScalar : ∀ entry ∈ entries, entry.2.IsScalar
  nodup : (entries.map Prod.fst).Nodup

theorem Entries.IsWritable.of_keys {entries : Entries} (keys : List String)
    (hkeys : entries.map Prod.fst = keys) (h : (∀ key ∈ keys, IsBareKey key) ∧ keys.Nodup)
    (hscalar : ∀ entry ∈ entries, entry.2.IsScalar) : entries.IsWritable where
  isBareKey := hkeys ▸ h.1
  isScalar := hscalar
  nodup := hkeys ▸ h.2

/-- The sections of a document can be written and read. -/
structure IsWritable (parts : List (String × Entries)) : Prop where
  isBareKey : ∀ name ∈ parts.map Prod.fst, IsBareKey name
  entries : ∀ part ∈ parts, part.2.IsWritable
  nodup : (parts.map Prod.fst).Nodup

theorem Reads.writeSection {part : String × Entries} (hname : IsBareKey part.1)
    (h : part.2.IsWritable) : Reads (writeSection part).toList (statementsOf part) := by
  have hentries : Reads (part.2.flatMap fun entry ↦ (writeEntry entry).toList)
      (part.2.flatMap fun entry ↦ [.entry [] entry.1 entry.2.reread]) :=
    .flatMap part.2 fun entry hentry ↦
      .entry (h.isBareKey entry.1 (List.mem_map_of_mem hentry)) (h.isScalar entry hentry)
  have htext : (Toml.writeSection part).toList = ("[" ++ part.1 ++ "]\n").toList ++
      part.2.flatMap fun entry ↦ (writeEntry entry).toList := by
    rw [Toml.writeSection, String.toList_append, String.toList_join, List.flatMap_map]
  rw [← List.map_eq_flatMap] at hentries
  rw [htext]
  exact (Reads.header hname).append hentries

/-- What is left of the text of a document: some of its sections, some of the entries in these, and
some of the empty lines that stand in front of sections. -/
structure Selection where
  keepsSection : (name : String) → Bool
  keepsEntry : (name key : String) → Bool
  keepsLine : (name : String) → Bool

namespace Selection

/-- Nothing is left out. -/
def all : Selection := ⟨fun _ ↦ true, fun _ _ ↦ true, fun _ ↦ true⟩

/-- What is left of a section. -/
def section? (kept : Selection) (part : String × Entries) : Option (String × Entries) :=
  if kept.keepsSection part.1 then some (part.1, part.2.filter (kept.keepsEntry part.1 ·.1))
  else none

/-- The sections that are left. -/
def select (kept : Selection) (parts : List (String × Entries)) : List (String × Entries) :=
  parts.filterMap kept.section?

/-- The text that is left of a section. -/
def writeSection (kept : Selection) (part : String × Entries) : String :=
  ((kept.section? part).map Toml.writeSection).getD ""

/-- The text that is left of a document. -/
def write (kept : Selection) : List (String × Entries) → String
  | [] => ""
  | part :: parts =>
    kept.writeSection part ++ String.join (parts.map fun part ↦
      (if kept.keepsLine part.1 then "\n" else "") ++ kept.writeSection part)

@[simp]
theorem writeSection_all (part : String × Entries) :
    all.writeSection part = Toml.writeSection part := by
  simp [writeSection, section?, all]

theorem write_all (parts : List (String × Entries)) : all.write parts = writeSections parts := by
  have hintercalate (x : List Char) (xs : List (List Char)) :
      List.intercalate ['\n'] (x :: xs) = x ++ xs.flatMap (['\n'] ++ ·) := by
    induction xs generalizing x with
    | nil => simp
    | cons y ys ih =>
      rw [List.intercalate_cons_cons, ih, List.flatMap_cons]
      simp
  rw [← String.toList_inj, writeSections, String.toList_intercalate]
  rcases parts with _ | ⟨part, parts⟩
  · rfl
  · have hline (part : String × Entries) :
        (if all.keepsLine part.1 then "\n" else "") = "\n" := rfl
    rw [write, List.map_cons, List.map_cons, show ("\n" : String).toList = ['\n'] from rfl,
      hintercalate]
    simp [String.toList_join, List.flatMap_map, hline]

/-- What is left of a section can be written and read if the whole section can. -/
theorem isWritable_of_section? {kept : Selection} {part part' : String × Entries}
    (h : kept.section? part = some part') (hpart : part.2.IsWritable) : part'.2.IsWritable := by
  rw [section?] at h
  split at h
  · obtain rfl := Option.some.inj h
    have hkeys := List.filter_sublist (p := (kept.keepsEntry part.1 ·.1)) (l := part.2)
      |>.map Prod.fst
    exact ⟨fun key hkey ↦ hpart.isBareKey key (hkeys.subset hkey),
      fun entry hentry ↦ hpart.isScalar entry (List.mem_of_mem_filter hentry),
      hpart.nodup.sublist hkeys⟩
  · cases h

theorem name_of_section? {kept : Selection} {part part' : String × Entries}
    (h : kept.section? part = some part') : part'.1 = part.1 := by
  rw [section?] at h
  split at h
  · exact (Option.some.inj h) ▸ rfl
  · cases h

theorem map_fst_select (kept : Selection) (parts : List (String × Entries)) :
    (kept.select parts).map Prod.fst = (parts.map Prod.fst).filter kept.keepsSection := by
  induction parts with
  | nil => rfl
  | cons part parts ih =>
    rw [select] at ih ⊢
    cases hkept : kept.keepsSection part.1 <;> simp [section?, hkept, ih]

theorem isWritable_select (kept : Selection) {parts : List (String × Entries)}
    (h : IsWritable parts) : IsWritable (kept.select parts) where
  isBareKey name hname := by
    rw [map_fst_select] at hname
    exact h.isBareKey name (List.mem_of_mem_filter hname)
  entries part hpart := by
    obtain ⟨whole, hwhole, hsection⟩ := List.mem_filterMap.mp hpart
    exact isWritable_of_section? hsection (h.entries whole hwhole)
  nodup := by
    rw [map_fst_select]
    exact h.nodup.filter _

theorem reads_writeSection (kept : Selection) {part : String × Entries} (hname : IsBareKey part.1)
    (h : part.2.IsWritable) :
    Reads (kept.writeSection part).toList ((kept.section? part).toList.flatMap statementsOf) := by
  rw [writeSection]
  rcases hsection : kept.section? part with _ | part'
  · exact .nil
  · have hread := Reads.writeSection (name_of_section? hsection ▸ hname)
      (isWritable_of_section? hsection h)
    rw [Option.toList_some, List.flatMap_singleton]
    exact hread

/-- The text that is left of a document is read as the statements that are left of it. -/
theorem reads_write (kept : Selection) {parts : List (String × Entries)} (h : IsWritable parts) :
    Reads (kept.write parts).toList ((kept.select parts).flatMap statementsOf) := by
  have hselect : (kept.select parts).flatMap statementsOf =
      parts.flatMap fun part ↦ (kept.section? part).toList.flatMap statementsOf := by
    rw [select, List.filterMap_eq_flatMap_toList, List.flatMap_assoc]
  have hsection (part : String × Entries) (hpart : part ∈ parts) :=
    kept.reads_writeSection (h.isBareKey part.1 (List.mem_map_of_mem hpart)) (h.entries part hpart)
  rw [hselect]
  rcases parts with _ | ⟨part, parts⟩
  · exact .nil
  · rw [write, String.toList_append, String.toList_join, List.flatMap_map, List.flatMap_cons]
    refine (hsection part List.mem_cons_self).append (.flatMap parts fun part' hpart' ↦ ?_)
    have hrest := hsection part' (List.mem_cons_of_mem part hpart')
    rw [String.toList_append]
    split
    · exact Reads.emptyLine.append hrest
    · exact hrest

end Selection

end OutlierScoring.Toml
