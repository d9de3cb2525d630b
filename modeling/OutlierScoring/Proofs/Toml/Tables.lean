import OutlierScoring.Proofs.Toml.Documents

/-!
# Tables are put together from their statements

The statements of sections with different names, each with different keys, are put together to one
table for each section (`assemble?_flatMap`). What is left of a document is therefore parsed to the
tables that are left of it (`parse?_write`), in which a key is found exactly if neither its section
nor its entry was left out (`lookup_select`, `lookup_entriesOf`).
-/

namespace OutlierScoring.Toml

/-- The entries of a section, as they are read. -/
def Entries.reread (entries : Entries) : Entries :=
  entries.map fun entry ↦ (entry.1, entry.2.reread)

/-- The table of a section, as it is read. -/
def tableOf (part : String × Entries) : String × Toml :=
  (part.1, .table .header part.2.reread)

theorem lookup_eq_none {β : Type} {key : String} {entries : List (String × β)}
    (h : key ∉ entries.map Prod.fst) : entries.lookup key = none := by
  rw [List.lookup_eq_none_iff]
  intro entry hentry
  exact bne_iff_ne.mpr fun heq ↦ h (heq ▸ List.mem_map_of_mem hentry)

/-! ### One section -/

theorem step?_header {d : Draft} {root : Entries} {name : String}
    (hfinish : d.finish? = some root) (hname : name ∉ root.map Prod.fst) :
    d.step? (.header [] name) = some ⟨root, some (.header [] name), []⟩ := by
  rw [Draft.step?, hfinish]
  simp only [bind, Option.bind, Entries.descend?, lookup_eq_none hname]
  rfl

theorem step?_entry {d : Draft} {key : String} (value : Toml)
    (hkey : key ∉ d.current.map Prod.fst) :
    d.step? (.entry [] key value) = some { d with current := d.current ++ [(key, value)] } := by
  rw [Draft.step?, Entries.insert?]
  simp only [List.isEmpty_nil, if_true, Entries.add?, lookup_eq_none hkey]
  rfl

/-- Entries with new keys are added one after the other. -/
theorem foldlM_entries (d : Draft) (entries : Entries)
    (hnodup : (d.current.map Prod.fst ++ entries.map Prod.fst).Nodup) :
    (entries.map fun entry ↦ Statement.entry [] entry.1 entry.2.reread).foldlM Draft.step? d =
      some { d with current := d.current ++ entries.reread } := by
  induction entries generalizing d with
  | nil => simp [Entries.reread]
  | cons entry entries ih =>
    have hkey : entry.1 ∉ d.current.map Prod.fst := fun hmem ↦
      (List.nodup_append.mp hnodup).2.2 _ hmem _ List.mem_cons_self rfl
    have hrest : ((d.current ++ [(entry.1, entry.2.reread)]).map Prod.fst ++
        entries.map Prod.fst).Nodup := by
      simpa using hnodup
    rw [List.map_cons, List.foldlM_cons, step?_entry _ hkey]
    show (entries.map _).foldlM Draft.step? _ = _
    rw [ih _ hrest]
    simp [Entries.reread]

theorem exists_foldlM_statementsOf {d : Draft} {root : Entries} {part : String × Entries}
    (hfinish : d.finish? = some root) (hname : part.1 ∉ root.map Prod.fst)
    (hkeys : (part.2.map Prod.fst).Nodup) :
    ∃ d', (statementsOf part).foldlM Draft.step? d = some d' ∧
      d'.finish? = some (root ++ [tableOf part]) := by
  refine ⟨⟨root, some (.header [] part.1), part.2.reread⟩, ?_, ?_⟩
  · rw [statementsOf, List.foldlM_cons, step?_header hfinish hname]
    exact foldlM_entries ⟨root, some (.header [] part.1), []⟩ part.2 hkeys
  · simp only [Draft.finish?, Entries.descend?, Entries.add?, lookup_eq_none hname]
    rfl

/-! ### All sections -/

/-- The induction is on the sections that are still to come; those before them are finished or can
be. -/
theorem exists_foldlM_flatMap {d : Draft} {root : Entries} {parts : List (String × Entries)}
    (hfinish : d.finish? = some root)
    (hnodup : (root.map Prod.fst ++ parts.map Prod.fst).Nodup)
    (hkeys : ∀ part ∈ parts, (part.2.map Prod.fst).Nodup) :
    ∃ d', (parts.flatMap statementsOf).foldlM Draft.step? d = some d' ∧
      d'.finish? = some (root ++ parts.map tableOf) := by
  induction parts generalizing d root with
  | nil => exact ⟨d, rfl, by simpa using hfinish⟩
  | cons part parts ih =>
    have hname : part.1 ∉ root.map Prod.fst := fun hmem ↦
      (List.nodup_append.mp hnodup).2.2 _ hmem _ List.mem_cons_self rfl
    obtain ⟨d₁, hfold, hfinish₁⟩ :=
      exists_foldlM_statementsOf hfinish hname (hkeys part List.mem_cons_self)
    have hrest : ((root ++ [tableOf part]).map Prod.fst ++ parts.map Prod.fst).Nodup := by
      simpa [tableOf] using hnodup
    obtain ⟨d₂, hfold₂, hfinish₂⟩ := ih hfinish₁ hrest fun part' hpart' ↦
      hkeys part' (List.mem_cons_of_mem part hpart')
    refine ⟨d₂, ?_, ?_⟩
    · rw [List.flatMap_cons, List.foldlM_append, hfold]
      exact hfold₂
    · rw [hfinish₂, List.append_assoc]
      rfl

theorem assemble?_flatMap {parts : List (String × Entries)} (h : IsWritable parts) :
    assemble? (parts.flatMap statementsOf) = some (parts.map tableOf) := by
  have hstart : Draft.empty.finish? = some [] := rfl
  obtain ⟨d, hfold, hfinish⟩ := exists_foldlM_flatMap hstart (by simpa using h.nodup)
    fun part hpart ↦ (h.entries part hpart).nodup
  rw [assemble?, hfold]
  exact hfinish

/-- What is left of a document is parsed to the tables that are left of it. -/
theorem parse?_write (kept : Selection) {parts : List (String × Entries)} (h : IsWritable parts) :
    parse? (kept.write parts) = some ((kept.select parts).map tableOf) := by
  have hread := (kept.reads_write h).statements?_eq
  rw [String.ofList_toList] at hread
  rw [parse?, hread]
  exact assemble?_flatMap (kept.isWritable_select h)

/-! ### Keys -/

theorem lookup_map {β γ : Type} (f : β → γ) (entries : List (String × β)) (key : String) :
    (entries.map fun entry ↦ (entry.1, f entry.2)).lookup key = (entries.lookup key).map f := by
  induction entries with
  | nil => rfl
  | cons entry entries ih =>
    rw [List.map_cons, List.lookup_cons, List.lookup_cons, ih]
    split <;> rfl

/-- An entry is found exactly if it was not left out. -/
theorem lookup_filter {β : Type} (keeps : String → Bool) (entries : List (String × β))
    (key : String) :
    (entries.filter (keeps ·.1)).lookup key = if keeps key then entries.lookup key else none := by
  induction entries with
  | nil => simp
  | cons entry entries ih =>
    obtain ⟨name, value⟩ := entry
    rw [List.filter_cons, List.lookup_cons]
    by_cases hkey : key = name
    · subst hkey
      cases hkept : keeps key <;> simp [ih, hkept]
    · have hne : (key == name) = false := beq_eq_false_iff_ne.mpr hkey
      rw [hne]
      split
      · rw [List.lookup_cons, hne]
        exact ih
      · exact ih

/-- The entries of the table that is left of a section. -/
def Selection.entriesOf (kept : Selection) (name : String) (entries : Entries) : Entries :=
  Entries.reread (entries.filter (kept.keepsEntry name ·.1))

/-- A table is found exactly if its section was not left out. -/
theorem lookup_select (kept : Selection) (parts : List (String × Entries)) (name : String) :
    ((kept.select parts).map tableOf).lookup name =
      if kept.keepsSection name then
        (parts.lookup name).map fun entries ↦ .table .header (kept.entriesOf name entries)
      else none := by
  induction parts with
  | nil => simp [Selection.select]
  | cons part parts ih =>
    rw [Selection.select] at ih ⊢
    rw [List.filterMap_cons, List.lookup_cons, Selection.section?]
    by_cases hname : name = part.1
    · subst hname
      cases hkept : kept.keepsSection part.1
      · simp [ih, hkept]
      · simp [tableOf, Selection.entriesOf]
    · have hne : (name == part.1) = false := beq_eq_false_iff_ne.mpr hname
      rw [hne, ← ih]
      cases kept.keepsSection part.1
      · rfl
      · simp [tableOf, List.lookup_cons, hne]

theorem lookup_entriesOf (kept : Selection) (name : String) (entries : Entries) (key : String) :
    (kept.entriesOf name entries).lookup key =
      if kept.keepsEntry name key then (entries.lookup key).map reread else none := by
  rw [Selection.entriesOf, Entries.reread, lookup_map, lookup_filter (kept.keepsEntry name)]
  split <;> rfl

end OutlierScoring.Toml
