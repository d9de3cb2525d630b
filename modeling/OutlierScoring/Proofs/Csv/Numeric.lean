import OutlierScoring.Dataset
import OutlierScoring.Proofs.Forest.Splits

/-!
# Numeric parts of tables

The matrix that is made of a table (`Csv.Table.selected`) has as many names as columns, and all of
its numbers are finite; a table file is loaded only if it has rows, too
(`Dataset.exists_of_load_ofFile_eq_ok`). Whatever keeps a table file from being loaded is
reported as a fault of the data set (`Dataset.exists_of_load_ofFile_eq_error`).
-/

namespace OutlierScoring

variable {α : Type} [Scalar α] [Numeral α]

namespace Csv.Table

variable {table : Table}

/-- All numbers that a numeric column holds are finite. -/
theorem isFinite_of_cell? {column : Nat} (h : table.isNumeric α column = true) {row : List String}
    (hrow : row ∈ table.rows) {x : α} (hx : cell? row column = some x) :
    Scalar.isFinite x = true := by
  obtain ⟨cell, hcell, hread⟩ := Option.bind_eq_some_iff.mp hx
  -- No number is read from an empty cell, so that the check has looked at this one.
  have hne : cell ≠ "" := by
    rintro rfl
    exact absurd hread nofun
  have hfilled : cell ∈ table.filled column :=
    List.mem_filter.mpr ⟨List.mem_filterMap.mpr ⟨row, hrow, hcell⟩, decide_eq_true hne⟩
  rw [isNumeric, Bool.and_eq_true, List.all_eq_true] at h
  have hfinite := h.2 cell hfilled
  rw [hread] at hfinite
  exact hfinite

/-- The numbers of a complete row are finite. -/
theorem isFinite_of_mem_numbers {row : List String} (hrow : row ∈ table.rows)
    (hcomplete : isComplete α (table.numericColumns α) row = true) {x : α}
    (hx : x ∈ (numbers (table.numericColumns α) row).toList) : Scalar.isFinite x = true := by
  rw [Vector.mem_toList_iff, numbers, Vector.mem_ofFn] at hx
  obtain ⟨k, rfl⟩ := hx
  have hnumeric : table.isNumeric α (table.numericColumns α)[k] = true :=
    (List.mem_filter.mp (List.mem_toArray.mp (Array.getElem_mem k.isLt))).2
  obtain ⟨x, hcell⟩ : ∃ x, cell? row (table.numericColumns α)[k] = some x :=
    Option.isSome_iff_exists.mp (Array.all_eq_true.mp hcomplete k k.isLt)
  rw [hcell]
  exact isFinite_of_cell? hnumeric hrow hcell

/-! ### Matrices -/

/-- The matrix of the complete rows. -/
def completeRows (columns : Array Nat) (rows : List (List String)) : Matrix α :=
  ⟨columns.size, ((rows.filter (isComplete α columns)).map (numbers columns)).toArray⟩

/-- The matrix that is made of a table. -/
def selected (α : Type) [Scalar α] [Numeral α] (table : Table) : FeatureMatrix α where
  names := (table.numericColumns α).toList.map fun column ↦ table.header[column]?.getD ""
  values := completeRows (table.numericColumns α) table.rows

theorem numericPart_eq (table : Table) (path : String) :
    (table.numericPart path : Outcome α (FeatureMatrix α)) =
      if (table.numericColumns α).isEmpty then .error (.dataset path .noNumericColumns)
      else if (table.rows.filter (isComplete α (table.numericColumns α))).isEmpty then
        .error (.dataset path .noCompleteRows)
      else .ok (table.selected α) := rfl

theorem height_selected_pos
    (h : ¬(table.rows.filter (isComplete α (table.numericColumns α))).isEmpty) :
    0 < (table.selected α).values.height := by
  rw [List.isEmpty_iff] at h
  simpa [selected, completeRows, Matrix.height, List.length_pos_iff] using h

theorem isFinite_selected : (table.selected α).values.IsFinite := by
  intro xs hxs x hx
  obtain ⟨row, hrow, rfl⟩ := List.mem_map.mp hxs
  obtain ⟨hmem, hcomplete⟩ := List.mem_filter.mp hrow
  exact isFinite_of_mem_numbers hmem hcomplete hx

/-- There are as many names as columns. -/
theorem length_names_selected (table : Table) :
    (table.selected α).names.length = (table.selected α).values.width := by
  simp [selected, completeRows]

/-- What is left of a table has rows. -/
theorem numericPart_eq_ok {path : String} {m : FeatureMatrix α}
    (h : table.numericPart path = .ok m) : m = table.selected α ∧ 0 < m.values.height := by
  rw [numericPart_eq] at h
  split at h
  · cases h
  split at h
  · cases h
  rename_i hrows
  obtain rfl := Except.ok.inj h
  exact ⟨rfl, height_selected_pos hrows⟩

end Csv.Table

namespace Dataset

/-- A file that is loaded holds a table, and the numeric part of that is what is loaded. -/
theorem exists_numericPart_eq_of_load {path : String} {tree : Files.Tree} {m : FeatureMatrix α}
    (h : (ofFile path : Dataset α).load tree = .ok m) :
    ∃ table : Csv.Table, table.numericPart path = .ok m := by
  simp only [ofFile] at h
  split at h
  · split at h
    · cases h
    · split at h
      · cases h
      · exact ⟨_, h⟩
  · cases h

/-- A table file that was loaded can be trained on. -/
theorem exists_of_load_ofFile_eq_ok {path : String} {tree : Files.Tree} {m : FeatureMatrix α}
    (h : (ofFile path : Dataset α).load tree = .ok m) :
    0 < m.values.height ∧ m.values.IsFinite := by
  obtain ⟨table, htable⟩ := exists_numericPart_eq_of_load h
  obtain ⟨rfl, hheight⟩ := Csv.Table.numericPart_eq_ok htable
  exact ⟨hheight, Csv.Table.isFinite_selected⟩

/-- The matrix that is loaded from a table file has a name for every column. -/
theorem length_names_of_load {path : String} {tree : Files.Tree} {m : FeatureMatrix α}
    (h : (ofFile path : Dataset α).load tree = .ok m) : m.names.length = m.values.width := by
  obtain ⟨table, htable⟩ := exists_numericPart_eq_of_load h
  obtain ⟨rfl, -⟩ := Csv.Table.numericPart_eq_ok htable
  exact table.length_names_selected

/-- A table file that cannot be loaded is at fault itself. -/
theorem exists_of_load_ofFile_eq_error {path : String} {tree : Files.Tree} {failure : Failure α}
    (h : (ofFile path : Dataset α).load tree = .error failure) :
    ∃ fault, failure = .dataset path fault := by
  simp only [ofFile] at h
  split at h
  · split at h
    · exact ⟨_, (Except.error.inj h).symm⟩
    · split at h
      · exact ⟨_, (Except.error.inj h).symm⟩
      · rw [Csv.Table.numericPart] at h
        simp only at h
        split at h
        · exact ⟨_, (Except.error.inj h).symm⟩
        · split at h
          · exact ⟨_, (Except.error.inj h).symm⟩
          · cases h
  · exact ⟨_, (Except.error.inj h).symm⟩

end Dataset

end OutlierScoring
