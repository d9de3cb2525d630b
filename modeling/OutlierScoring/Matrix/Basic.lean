import OutlierScoring.Failure

/-!
# Matrices

A matrix is a list of rows of one width: rows are observations, columns are features. A matrix
without rows still has a width, and rows may be empty.
-/

namespace OutlierScoring

/-- Rows of equally many numbers. -/
structure Matrix (α : Type) where
  width : Nat
  rows : Array (Vector α width)

namespace Matrix

variable {α : Type}

/-- The number of rows. -/
def height (m : Matrix α) : Nat := m.rows.size

/-- Each number becomes a row of its own. -/
def ofSeries (series : List α) : Matrix α := ⟨1, (series.map fun x ↦ #v[x]).toArray⟩

/-- The place of a cell where all cells stand row after row. -/
def cellIndex {height width : Nat} (i : Fin height) (j : Fin width) : Fin (height * width) :=
  ⟨i * width + j, by
    calc i * width + j < i * width + width := by omega
      _ = (i + 1) * width := by rw [Nat.add_mul, Nat.one_mul]
      _ ≤ height * width := Nat.mul_le_mul_right _ i.isLt⟩

/-- The matrix with the given cells, row after row, if there are as many as needed. -/
def ofCells? (height width : Nat) (cells : Array α) : Option (Matrix α) :=
  if h : cells.size = height * width then
    some ⟨width, Array.ofFn fun i : Fin height ↦ Vector.ofFn fun j : Fin width ↦
      cells[(cellIndex i j).cast h.symm]⟩
  else none

/-- All cells, row after row. -/
def cells (m : Matrix α) : List α := m.rows.toList.flatMap Vector.toList

/-- The row of the given index. -/
def row (m : Matrix α) (i : Fin m.height) : Vector α m.width :=
  have : i.val < m.rows.size := i.isLt
  m.rows[i.val]

/-- The column of the given index, from the first row to the last. -/
def column (m : Matrix α) (j : Fin m.width) : List α := m.rows.toList.map (·[j])

/-- The row and the column of the first cell that is not finite, row after row. -/
def firstNonFinite? [Scalar α] (m : Matrix α) : Option (Nat × Nat) :=
  m.rows.toList.zipIdx.findSome? fun (row, i) ↦
    (row.toList.findIdx? (!Scalar.isFinite ·)).map (i, ·)

/-- Fails on the first cell that is not finite. -/
def ensureFinite [Scalar α] (m : Matrix α) : Outcome α Unit :=
  match m.firstNonFinite? with
  | none => .ok ()
  | some (row, column) => .error (.nonFiniteValue row column)

@[simp] theorem height_ofSeries (series : List α) : (ofSeries series).height = series.length := by
  simp [height, ofSeries]

@[simp] theorem width_ofSeries (series : List α) : (ofSeries series).width = 1 := rfl

theorem column_length (m : Matrix α) (j : Fin m.width) : (m.column j).length = m.height := by
  simp [column, height]

end Matrix

end OutlierScoring
