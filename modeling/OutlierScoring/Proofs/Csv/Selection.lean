import OutlierScoring.Proofs.Csv.Numeric
import OutlierScoring.Proofs.Files.Places
import OutlierScoring.Proofs.Matrix.Cells
import OutlierScoring.Proofs.Outcome

/-!
# The complete numeric part of a table

Which columns of a table are numeric depends on all of its rows, and which rows are complete depends
on the numeric columns. Here both are said without the functions that find them
(`Csv.Table.HoldsNumbers`, `Csv.Table.IsFilled`), and so is the matrix that is made of them
(`Csv.Table.IsNumericPart`): all and only the numeric columns, all and only the complete rows, both
in the order of the table. A table without numeric columns, or without complete rows, is refused for
that and for nothing else (`Dataset.loads_numeric_part`).

The numbers can also be collected in one buffer, in which incomplete rows are skipped on the way
(`Csv.Table.fill`). It holds just as many numbers as the matrix needs, and is cut into the rows of
the same matrix (`Csv.Table.ofCells?_fill`).
-/

namespace OutlierScoring

namespace Csv.Table

variable {α : Type} [Scalar α] [Numeral α] {table : Table}

/-! ### What there is to be found -/

/-- All rows are as wide as the header. -/
def IsRectangular (table : Table) : Prop := ∀ row ∈ table.rows, row.length = table.header.length

/-- A column is numeric: some of its cells are not empty, and those that are not empty are finite
numbers. -/
structure HoldsNumbers (α : Type) [Scalar α] [Numeral α] (table : Table) (j : Nat) : Prop where
  lt_width : j < table.header.length
  exists_filled : ∃ row ∈ table.rows, ∃ cell, row[j]? = some cell ∧ cell ≠ ""
  isFinite : ∀ row ∈ table.rows, ∀ cell, row[j]? = some cell → cell ≠ "" →
    ∃ x : α, Numeral.read? cell = some x ∧ Scalar.isFinite x = true

/-- None of the columns is empty in a row. -/
def IsFilled (columns : List Nat) (row : List String) : Prop := ∀ j ∈ columns, row[j]? ≠ some ""

instance (columns : List Nat) : DecidablePred (IsFilled columns) :=
  fun row ↦ inferInstanceAs (Decidable (∀ j ∈ columns, row[j]? ≠ some ""))

/-- The numbers of the rows that have a number in each of the columns, one row after the other, and
how many rows that are. -/
def fill (α : Type) [Numeral α] (columns : List Nat) (rows : List (List String)) : List α × Nat :=
  rows.foldl (fun (cells, count) row ↦
    match columns.mapM (cell? row) with
    | some numbers => (cells ++ numbers, count + 1)
    | none => (cells, count)) ([], 0)

/-- The matrix consists of the numeric columns of the table and of the rows in which none of them is
empty. -/
structure IsNumericPart (table : Table) (columns : List Nat) (m : FeatureMatrix α) : Prop where
  /-- The columns are in the order of the table, and none of them is there twice. -/
  sorted : columns.Pairwise (· < ·)
  mem_iff : ∀ j, j ∈ columns ↔ table.HoldsNumbers α j
  names : List.Forall₂ (fun j name ↦ table.header[j]? = some name) columns m.names
  /-- The complete rows are in the order of the table, none of them is left out and none of them is
  there twice. -/
  rows : List.Forall₂
    (fun row numbers ↦ List.Forall₂ (fun j x ↦ cell? row j = some x) columns numbers.toList)
    (table.rows.filter (IsFilled columns)) m.values.rows.toList
  width_pos : 0 < m.values.width
  height_pos : 0 < m.values.height
  isFinite : m.values.IsFinite
  /-- There are as many names as columns. -/
  new_eq_ok : FeatureMatrix.new m.names m.values = .ok m
  /-- The buffer that skips incomplete rows has the right size, and the right numbers in it. -/
  ofCells?_fill : Matrix.ofCells? (fill α columns table.rows).2 columns.length
    (fill α columns table.rows).1.toArray = some m.values

/-- What can come of a table. -/
structure LoadsNumericPart (table : Table) (path : String) (outcome : Outcome α (FeatureMatrix α)) :
    Prop where
  noNumericColumns_iff : outcome = .error (.dataset path .noNumericColumns) ↔
    ∀ j, ¬table.HoldsNumbers α j
  noCompleteRows_iff : outcome = .error (.dataset path .noCompleteRows) ↔
    (∃ j, table.HoldsNumbers α j) ∧
      ∀ row ∈ table.rows, ∃ j, table.HoldsNumbers α j ∧ row[j]? = some ""
  loaded : (∃ j, table.HoldsNumbers α j) →
    (∃ row ∈ table.rows, ∀ j, table.HoldsNumbers α j → row[j]? ≠ some "") →
      ∃ columns m, outcome = .ok m ∧ table.IsNumericPart columns m
  /-- Nothing else keeps a table from being used. -/
  failsOnly : outcome.FailsOnly fun failure ↦
    failure = .dataset path .noNumericColumns ∨ failure = .dataset path .noCompleteRows

/-! ### Columns -/

theorem isNumeric_iff {j : Nat} : table.isNumeric α j = true ↔
    (∃ row ∈ table.rows, ∃ cell, row[j]? = some cell ∧ cell ≠ "") ∧
      ∀ row ∈ table.rows, ∀ cell, row[j]? = some cell → cell ≠ "" →
        ∃ x : α, Numeral.read? cell = some x ∧ Scalar.isFinite x = true := by
  have hmem (cell : String) : cell ∈ table.filled j ↔
      (∃ row ∈ table.rows, row[j]? = some cell) ∧ cell ≠ "" := by
    rw [filled, List.mem_filter, List.mem_filterMap, decide_eq_true_iff]
  have hread (cell : String) :
      ((Numeral.read? cell : Option α).map Scalar.isFinite).getD false = true ↔
        ∃ x : α, Numeral.read? cell = some x ∧ Scalar.isFinite x = true := by
    rcases (Numeral.read? cell : Option α) with _ | x <;> simp
  rw [isNumeric, Bool.and_eq_true, List.all_eq_true, Bool.not_eq_true',
    List.isEmpty_eq_false_iff_exists_mem]
  simp only [hmem, hread]
  constructor
  · rintro ⟨⟨cell, ⟨row, hrow, hcell⟩, hne⟩, hall⟩
    refine ⟨⟨row, hrow, cell, hcell, hne⟩, ?_⟩
    intro row hrow cell hcell hne
    exact hall cell ⟨⟨row, hrow, hcell⟩, hne⟩
  · rintro ⟨⟨row, hrow, cell, hcell, hne⟩, hall⟩
    refine ⟨⟨cell, ⟨row, hrow, hcell⟩, hne⟩, ?_⟩
    rintro cell ⟨⟨row, hrow, hcell⟩, hne⟩
    exact hall row hrow cell hcell hne

theorem mem_numericColumns_iff {j : Nat} :
    j ∈ (table.numericColumns α).toList ↔ table.HoldsNumbers α j := by
  rw [numericColumns, List.toList_toArray, List.mem_filter, List.mem_range, isNumeric_iff]
  exact ⟨fun ⟨hlt, hfilled, hfinite⟩ ↦ ⟨hlt, hfilled, hfinite⟩,
    fun h ↦ ⟨h.lt_width, h.exists_filled, h.isFinite⟩⟩

theorem pairwise_numericColumns : (table.numericColumns α).toList.Pairwise (· < ·) :=
  List.Pairwise.sublist List.filter_sublist List.pairwise_lt_range

/-! ### Rows -/

/-- A row has a number in a numeric column unless its cell there is empty. -/
theorem HoldsNumbers.isSome_cell?_iff {j : Nat} (hj : table.HoldsNumbers α j)
    (hrect : table.IsRectangular) {row : List String} (hrow : row ∈ table.rows) :
    (cell? row j : Option α).isSome = true ↔ row[j]? ≠ some "" := by
  have hlt : j < row.length := hrect row hrow ▸ hj.lt_width
  rw [cell?, List.getElem?_eq_getElem hlt, Option.bind_some, ne_eq, Option.some.injEq]
  constructor
  · intro hread hempty
    rw [hempty] at hread
    cases hread
  · intro hne
    obtain ⟨x, hx, -⟩ := hj.isFinite row hrow row[j] (List.getElem?_eq_getElem hlt) hne
    rw [hx]
    rfl

theorem isComplete_iff (hrect : table.IsRectangular) {row : List String}
    (hrow : row ∈ table.rows) : isComplete α (table.numericColumns α) row = true ↔
      IsFilled (table.numericColumns α).toList row := by
  rw [isComplete, ← Array.all_toList, List.all_eq_true]
  refine forall₂_congr fun j hj ↦ ?_
  exact (mem_numericColumns_iff.mp hj).isSome_cell?_iff hrect hrow

omit [Scalar α] in
/-- A row is complete if there are numbers in all of the columns. -/
theorem isComplete_of_forall₂ {columns : Array Nat} {row : List String} {xs : List α}
    (h : List.Forall₂ (fun j x ↦ cell? row j = some x) columns.toList xs) :
    isComplete α columns row = true := by
  rw [isComplete, ← Array.all_toList, List.all_eq_true]
  intro j hj
  obtain ⟨i, hi, rfl⟩ := List.getElem_of_mem hj
  exact Option.isSome_iff_exists.mpr ⟨_, h.get hi (h.length_eq ▸ hi)⟩

/-- The numbers of a complete row are what is read in its columns. -/
theorem forall₂_numbers {columns : Array Nat} {row : List String}
    (h : isComplete α columns row = true) :
    List.Forall₂ (fun j x ↦ cell? row j = some x) columns.toList
      (numbers columns row : Vector α _).toList := by
  refine List.forall₂_iff_get.mpr ⟨by simp, fun i hi hi' ↦ ?_⟩
  have hi : i < columns.size := by simpa using hi
  obtain ⟨x, hx⟩ : ∃ x : α, cell? row columns[i] = some x :=
    Option.isSome_iff_exists.mp (Array.all_eq_true.mp h i hi)
  simp [numbers, hx]

/-! ### The buffer -/

/-- The columns are read one after the other, and a row without a number in one of them is given
up. -/
theorem mapM_cell? (columns : Array Nat) (row : List String) :
    columns.toList.mapM (cell? row) =
      if isComplete α columns row then some (numbers columns row : Vector α _).toList
      else none := by
  split
  · rename_i hcomplete
    exact Outcome.mapM_eq_some_iff.mpr (forall₂_numbers hcomplete)
  · rename_i hincomplete
    rcases hread : columns.toList.mapM (cell? row) with _ | xs
    · rfl
    · exact absurd (isComplete_of_forall₂ (Outcome.mapM_eq_some_iff.mp hread)) hincomplete

theorem fill_eq (columns : Array Nat) (rows : List (List String)) :
    fill α columns.toList rows =
      ((rows.filter (isComplete α columns)).flatMap fun row ↦ (numbers columns row).toList,
        (rows.filter (isComplete α columns)).length) := by
  -- The buffer is filled from the front, so that what is in it already has to be general.
  suffices h : ∀ (cells : List α) (count : Nat), rows.foldl (fun (cells, count) row ↦
      match columns.toList.mapM (cell? row) with
      | some numbers => (cells ++ numbers, count + 1)
      | none => (cells, count)) (cells, count) =
      (cells ++ (rows.filter (isComplete α columns)).flatMap fun row ↦ (numbers columns row).toList,
        count + (rows.filter (isComplete α columns)).length) by
    simpa [fill] using h [] 0
  induction rows with
  | nil => simp
  | cons row rows ih =>
    intro cells count
    rw [List.foldl_cons, List.filter_cons, mapM_cell?]
    by_cases hcomplete : isComplete α columns row = true
    · simp only [if_pos hcomplete]
      rw [ih]
      simp [Nat.add_assoc, Nat.add_comm]
    · simp only [if_neg hcomplete]
      exact ih cells count

/-! ### Tables -/

/-- The buffer is cut into the rows of the matrix. -/
theorem ofCells?_fill (columns : Array Nat) (rows : List (List String)) :
    Matrix.ofCells? (fill α columns.toList rows).2 columns.size
        (fill α columns.toList rows).1.toArray = some (completeRows columns rows) := by
  have hheight :
      (fill α columns.toList rows).2 = (completeRows columns rows : Matrix α).height := by
    simp [completeRows, Matrix.height, fill_eq]
  have hcells : (fill α columns.toList rows).1 = (completeRows columns rows : Matrix α).cells := by
    simp [completeRows, Matrix.cells, fill_eq, List.flatMap_map]
  rw [hheight, hcells]
  exact Matrix.ofCells?_cells _

theorem filter_isComplete (hrect : table.IsRectangular) :
    table.rows.filter (isComplete α (table.numericColumns α)) =
      table.rows.filter (IsFilled (table.numericColumns α).toList) := by
  refine List.filter_congr fun row hrow ↦ ?_
  rw [Bool.eq_iff_iff, decide_eq_true_iff]
  exact isComplete_iff hrect hrow

/-- What is made of a table that has numeric columns and complete rows. -/
theorem isNumericPart_selected (hrect : table.IsRectangular)
    (hcolumns : ¬(table.numericColumns α).isEmpty)
    (hrows : ¬(table.rows.filter (isComplete α (table.numericColumns α))).isEmpty) :
    table.IsNumericPart (table.numericColumns α).toList (table.selected α) where
  sorted := pairwise_numericColumns
  mem_iff j := mem_numericColumns_iff
  names := by
    rw [selected, List.forall₂_map_right_iff, List.forall₂_same]
    intro j hj
    rw [List.getElem?_eq_getElem (mem_numericColumns_iff.mp hj).lt_width]
    rfl
  rows := by
    rw [← filter_isComplete hrect, selected, completeRows, List.toList_toArray,
      List.forall₂_map_right_iff, List.forall₂_same]
    intro row hrow
    exact forall₂_numbers (List.mem_filter.mp hrow).2
  width_pos := by
    rw [Array.isEmpty_iff_size_eq_zero] at hcolumns
    exact Nat.pos_of_ne_zero hcolumns
  height_pos := height_selected_pos hrows
  isFinite := isFinite_selected
  new_eq_ok := if_pos (by simp [selected, completeRows])
  ofCells?_fill := by
    rw [Array.length_toList]
    exact ofCells?_fill _ _

/-- A table with equally wide rows is loaded, or refused for its columns or for its rows. -/
theorem loadsNumericPart_numericPart (hrect : table.IsRectangular) (path : String) :
    LoadsNumericPart table path (table.numericPart path : Outcome α (FeatureMatrix α)) := by
  have hcolumns : (table.numericColumns α).isEmpty = true ↔ ∀ j, ¬table.HoldsNumbers α j := by
    rw [← Array.isEmpty_toList, List.isEmpty_iff, List.eq_nil_iff_forall_not_mem]
    exact forall_congr' fun j ↦ not_congr mem_numericColumns_iff
  have hrows : (table.rows.filter (isComplete α (table.numericColumns α))).isEmpty = true ↔
      ∀ row ∈ table.rows, ∃ j, table.HoldsNumbers α j ∧ row[j]? = some "" := by
    rw [filter_isComplete hrect, List.isEmpty_iff, List.filter_eq_nil_iff]
    refine forall₂_congr fun row _ ↦ ?_
    rw [decide_eq_true_iff, IsFilled]
    simp only [mem_numericColumns_iff]
    push Not
    rfl
  rw [numericPart_eq]
  by_cases hnone : (table.numericColumns α).isEmpty = true
  · rw [if_pos hnone]
    have hnot := hcolumns.mp hnone
    exact {
      noNumericColumns_iff := ⟨fun _ ↦ hnot, fun _ ↦ rfl⟩
      noCompleteRows_iff := ⟨nofun, fun ⟨⟨j, hj⟩, _⟩ ↦ absurd hj (hnot j)⟩
      loaded := fun ⟨j, hj⟩ ↦ absurd hj (hnot j)
      failsOnly := Outcome.failsOnly_error (.inl rfl) }
  rw [if_neg hnone]
  obtain ⟨j, hj⟩ : ∃ j, table.HoldsNumbers α j := by
    simpa using mt hcolumns.mpr hnone
  by_cases hempty : (table.rows.filter (isComplete α (table.numericColumns α))).isEmpty = true
  · rw [if_pos hempty]
    have hall := hrows.mp hempty
    refine {
      noNumericColumns_iff := ⟨nofun, fun hnot ↦ absurd hj (hnot j)⟩
      noCompleteRows_iff := ⟨fun _ ↦ ⟨⟨j, hj⟩, hall⟩, fun _ ↦ rfl⟩
      loaded := ?_
      failsOnly := Outcome.failsOnly_error (.inr rfl) }
    rintro - ⟨row, hrow, hfilled⟩
    obtain ⟨k, hk, hcell⟩ := hall row hrow
    exact absurd hcell (hfilled k hk)
  · rw [if_neg hempty]
    exact {
      noNumericColumns_iff := ⟨nofun, fun hnot ↦ absurd hj (hnot j)⟩
      noCompleteRows_iff := ⟨nofun, fun ⟨_, hall⟩ ↦ absurd (hrows.mpr hall) hempty⟩
      loaded := fun _ _ ↦ ⟨_, _, rfl, isNumericPart_selected hrect hnone hempty⟩
      failsOnly := Outcome.failsOnly_ok _ }

end Csv.Table

/-! ### Files -/

namespace Csv

theorem Record.length_texts {record : Record} {index : Nat} {texts : List String}
    (h : record.texts index = .ok texts) : texts.length = record.fields.length :=
  (Outcome.length_of_mapM h).trans List.length_zipIdx

theorem Record.length_cells {record : Record} {index width : Nat} {cells : List String}
    (h : record.cells index width = .ok cells) : cells.length = width := by
  rw [Record.cells] at h
  split at h
  · rename_i hwidth
    rw [length_texts h, List.length_map, hwidth]
  · cases h

/-- The rows of a table file are as wide as its header. -/
theorem Table.isRectangular_of_ofBytes {file : List UInt8} {table : Table}
    (h : ofBytes file = .ok table) : table.IsRectangular := by
  rw [ofBytes] at h
  split at h
  · obtain rfl := Except.ok.inj h
    exact nofun
  · obtain ⟨names, hnames, h⟩ := Outcome.exists_of_bind_eq_ok h
    obtain ⟨rows, hrows, h⟩ := Outcome.exists_of_bind_eq_ok h
    obtain rfl := Except.ok.inj h
    intro row hrow
    obtain ⟨_, -, hcells⟩ := Outcome.exists_of_mem_mapM hrows row hrow
    exact (Record.length_cells hcells).trans (Record.length_texts hnames).symm

end Csv

/-- A table file is loaded as the numeric part of its table. -/
theorem Dataset.load_ofFile_of_ofBytes {α : Type} [Scalar α] [Numeral α] {path : String}
    {tree : Files.Tree} {content : ByteArray} {table : Csv.Table}
    (hread : tree.read (.ofText path) = .ok content)
    (htable : Csv.Table.ofBytes content.data.toList = .ok table) :
    (ofFile path : Dataset α).load tree = table.numericPart path := by
  have hfile : tree.isFile (.ofText path) = true := Files.Tree.isFile_iff_exists_read.mpr ⟨_, hread⟩
  show (if tree.isFile (.ofText path) then _ else _) = _
  rw [if_pos hfile, hread]
  simp only
  rw [htable]

/-- Whatever table there is, the complete numeric part of it is what is loaded; the table in a file
has equally wide rows, and the file is loaded as its table. -/
theorem Dataset.loads_numeric_part {α : Type} [Scalar α] [Numeral α] (path : String) :
    (∀ table : Csv.Table, table.IsRectangular →
      table.LoadsNumericPart path (table.numericPart path : Outcome α (FeatureMatrix α))) ∧
    ∀ (tree : Files.Tree) (content : ByteArray) (table : Csv.Table),
      tree.read (.ofText path) = .ok content → Csv.Table.ofBytes content.data.toList = .ok table →
        table.IsRectangular ∧
          table.LoadsNumericPart path ((ofFile path : Dataset α).load tree) := by
  refine ⟨fun table hrect ↦ table.loadsNumericPart_numericPart hrect path, ?_⟩
  intro tree content table hread htable
  have hrect := Csv.Table.isRectangular_of_ofBytes htable
  rw [load_ofFile_of_ofBytes hread htable]
  exact ⟨hrect, table.loadsNumericPart_numericPart hrect path⟩

/-- A table file with a column of names, and with a row in which a number is missing. -/
def gappyFiles : Files.Tree :=
  ⟨[(["data"], .folder),
    (["fallback.csv", "data"], .file "host,cpu,mem\nx,1,2\ny, ,3\nz,5,6.5\n".toUTF8)]⟩

/-- The table in that file. -/
def gappyTable : Csv.Table :=
  ⟨["host", "cpu", "mem"], [["x", "1", "2"], ["y", "", "3"], ["z", "5", "6.5"]]⟩

/-- Two of its columns are numeric, and two of its rows are complete. -/
theorem Dataset.loads_numeric_part_gappyFiles :
    gappyTable.IsRectangular ∧
    gappyTable.LoadsNumericPart "data/fallback.csv"
      (gappyTable.numericPart "data/fallback.csv" : Outcome Float (FeatureMatrix Float)) ∧
    gappyTable.LoadsNumericPart "data/fallback.csv"
      ((ofFile "data/fallback.csv" : Dataset Float).load gappyFiles) ∧
    ((ofFile "data/fallback.csv" : Dataset Float).load gappyFiles).toOption.any
      (fun m ↦ m.names = ["cpu", "mem"] ∧ m.values.cells = [1, 2, 5, 6.5]) = true := by
  obtain ⟨hnumeric, hload⟩ := Dataset.loads_numeric_part (α := Float) "data/fallback.csv"
  obtain ⟨content, hread, htable⟩ : ∃ content,
      gappyFiles.read (.ofText "data/fallback.csv") = .ok content ∧
        Csv.Table.ofBytes content.data.toList = .ok gappyTable := by
    refine ⟨_, rfl, ?_⟩
    decide +kernel
  obtain ⟨hrect, hfile⟩ := hload gappyFiles content gappyTable hread htable
  exact ⟨hrect, hnumeric gappyTable hrect, hfile, by decide +kernel⟩

end OutlierScoring
