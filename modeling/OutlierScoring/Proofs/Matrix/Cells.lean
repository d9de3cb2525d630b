import Mathlib.Logic.Basic
import OutlierScoring.Matrix.Basic

/-!
# Cells of a matrix in a row

A matrix is settled by its extents and its cells, row after row, and any cells of the right number
make a matrix (`Matrix.ofCells?_eq_some_iff`).
-/

namespace OutlierScoring.Matrix

variable {α : Type}

theorem length_flatMap_toList {width : Nat} (rows : List (Vector α width)) :
    (rows.flatMap Vector.toList).length = rows.length * width := by
  induction rows with
  | nil => exact (Nat.zero_mul width).symm
  | cons row rows ih =>
    rw [List.flatMap_cons, List.length_append, ih, Vector.length_toList, List.length_cons,
      Nat.succ_mul, Nat.add_comm]

/-- Where rows stand one after the other, a cell is found by its row and its column. -/
theorem getElem?_flatMap_toList {width : Nat} (rows : List (Vector α width)) {i j : Nat}
    (hi : i < rows.length) (hj : j < width) :
    (rows.flatMap Vector.toList)[i * width + j]? = some rows[i][j] := by
  induction rows generalizing i with
  | nil => exact absurd hi (Nat.not_lt_zero i)
  | cons row rows ih =>
    have hlength : row.toList.length = width := Vector.length_toList
    rw [List.flatMap_cons]
    cases i with
    | zero =>
      rw [Nat.zero_mul, Nat.zero_add, List.getElem?_append_left (by omega)]
      simp [hj]
    | succ i =>
      rw [Nat.succ_mul, List.getElem?_append_right (by omega), hlength,
        show i * width + width + j - width = i * width + j by omega]
      exact ih (Nat.lt_of_succ_lt_succ hi)

theorem length_cells (m : Matrix α) : m.cells.length = m.height * m.width := by
  rw [cells, length_flatMap_toList, Array.length_toList, height]

/-- Cells that stand where those of a matrix stand are its cells. -/
theorem cells_eq_of_getElem? {m : Matrix α} {xs : List α} (hlength : xs.length = m.height * m.width)
    (h : ∀ (i : Fin m.height) (j : Fin m.width), xs[i * m.width + j.val]? = some (m.row i)[j]) :
    m.cells = xs := by
  refine List.ext_getElem? fun k ↦ ?_
  rcases Nat.lt_or_ge k (m.height * m.width) with hk | hk
  · -- The place of a cell in the list tells its row and its column.
    obtain ⟨i, j, hi, hj, rfl⟩ : ∃ i j, i < m.height ∧ j < m.width ∧ k = i * m.width + j :=
      ⟨k / m.width, k % m.width, Nat.div_lt_of_lt_mul (Nat.mul_comm _ _ ▸ hk),
        Nat.mod_lt k (Nat.pos_of_ne_zero fun hzero ↦ by simp [hzero] at hk),
        (Nat.div_add_mod' k m.width).symm⟩
    rw [h ⟨i, hi⟩ ⟨j, hj⟩, cells,
      getElem?_flatMap_toList m.rows.toList (by rwa [Array.length_toList]) hj]
    rfl
  · rw [List.getElem?_eq_none (length_cells m ▸ hk), List.getElem?_eq_none (hlength ▸ hk)]

/-- The cells that a matrix was made of are its cells. -/
theorem of_ofCells?_eq_some {height width : Nat} {cells : Array α} {m : Matrix α}
    (h : ofCells? height width cells = some m) :
    m.height = height ∧ m.width = width ∧ m.cells = cells.toList := by
  rw [ofCells?] at h
  split at h
  · rename_i hsize
    obtain rfl := Option.some.inj h
    refine ⟨Array.size_ofFn, rfl, cells_eq_of_getElem? ?_ fun i j ↦ ?_⟩
    · rw [Array.length_toList]
      exact hsize.trans (congrArg (· * width) Array.size_ofFn.symm)
    · have hi : i.val < height := Nat.lt_of_lt_of_eq i.isLt Array.size_ofFn
      have hlt := ((cellIndex ⟨i, hi⟩ j).cast hsize.symm).isLt
      simp only [row, Array.getElem_ofFn, Fin.getElem_fin, Vector.getElem_ofFn]
      rw [Array.getElem?_toList]
      exact Array.getElem?_eq_getElem hlt
  · cases h

/-- A matrix is what its cells are cut into. -/
theorem ofCells?_cells (m : Matrix α) : ofCells? m.height m.width m.cells.toArray = some m := by
  have hsize : m.cells.toArray.size = m.height * m.width := by
    rw [List.size_toArray, length_cells]
  rw [ofCells?, dif_pos hsize]
  obtain ⟨width, rows⟩ := m
  refine congrArg (fun rows ↦ some (⟨width, rows⟩ : Matrix α)) ?_
  refine Array.ext Array.size_ofFn fun i hi hi' ↦ Vector.ext fun j hj ↦ ?_
  have hcell := getElem?_flatMap_toList rows.toList (i := i) (by simpa using hi') hj
  obtain ⟨hlt, hcell⟩ := List.getElem?_eq_some_iff.mp hcell
  rw [Array.getElem_ofFn, Vector.getElem_ofFn]
  exact hcell

/-- Extents and cells settle a matrix. -/
theorem ofCells?_eq_some_iff {height width : Nat} {cells : Array α} {m : Matrix α} :
    ofCells? height width cells = some m ↔
      m.height = height ∧ m.width = width ∧ m.cells = cells.toList := by
  refine ⟨of_ofCells?_eq_some, ?_⟩
  rintro ⟨rfl, rfl, hcells⟩
  rw [show cells = m.cells.toArray from Array.toList_inj.mp hcells.symm]
  exact ofCells?_cells m

end OutlierScoring.Matrix
