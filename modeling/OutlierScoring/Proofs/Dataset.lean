import OutlierScoring.Dataset
import OutlierScoring.Proofs.Csv.Lines
import OutlierScoring.Proofs.Files.Twins
import OutlierScoring.Proofs.Json.Lines

/-!
# Data sets among stored documents

Nothing keeps a data set from being read from a file that holds a stored document. A document in one
line has no rows to train on (`load_ofFile_of_document`), so it does not matter which document it
is: on trees that differ at most in such documents, a data set file is the same supply
(`load_ofFile_congr`).
-/

namespace OutlierScoring.Dataset

open Files

variable {α : Type} [Scalar α] [Numeral α] {tree twin : Tree}

/-- A table without rows has no numeric columns. -/
theorem numericPart_of_no_rows (header : List String) (path : String) :
    (Csv.Table.numericPart ⟨header, []⟩ path : Outcome α (FeatureMatrix α)) =
      .error (.dataset path .noNumericColumns) := by
  have hcolumns : Csv.Table.numericColumns α ⟨header, []⟩ = #[] := by
    rw [Csv.Table.numericColumns, List.filter_eq_nil_iff.mpr]
    intro column _ hnumeric
    exact absurd hnumeric (by rw [Csv.Table.isNumeric]; exact nofun)
  rw [Csv.Table.numericPart, hcolumns]
  rfl

/-- There is nothing to train on in a record that is stored in one line. -/
theorem load_ofFile_of_document {path : String} {members : List (String × Json)}
    (h : tree.read (.ofText path) = .ok (Json.record members).compact.toUTF8) :
    (ofFile path : Dataset α).load tree = .error (.dataset path .noNumericColumns) := by
  have hfile : tree.isFile (.ofText path) = true := Tree.isFile_iff_exists_read.mpr ⟨_, h⟩
  obtain ⟨text, htext⟩ : ∃ text, (Json.record members).compact.toList = '\x7b' :: text := by
    rw [Json.compact, String.toList_ofList]
    rcases members with _ | ⟨⟨name, value⟩, members⟩
    · exact ⟨_, rfl⟩
    · exact ⟨_, by rw [Json.writeCompact]⟩
  -- The document is a single line, so that the whole of it is taken for a header.
  have hline := Json.isLine_compact (.record members)
  rw [htext] at hline
  obtain ⟨header, hheader⟩ := Csv.exists_ofBytes_eq (by decide) hline
  have hbytes : (Json.record members).compact.toUTF8.data.toList = Csv.encode ('\x7b' :: text) := by
    rw [← htext, String.toUTF8_eq_toByteArray, ← String.utf8Encode_toList]
    simp [List.utf8Encode, Csv.encode]
  show (if tree.isFile (.ofText path) then _ else _) = _
  rw [if_pos hfile, h]
  simp only
  rw [hbytes, hheader]
  exact numericPart_of_no_rows header path

/-- On trees that are the same but for the documents in one file, a data set file is the same
supply. -/
theorem load_ofFile_congr {apart : Location → Prop} (hsame : Tree.SameBut apart tree twin)
    {place : Location} (hapart : ∀ other : Location, other.IsNamed → apart other → other = place)
    (hplace : tree.find? place = twin.find? place ∨ ∃ members members',
      tree.find? place = some (.file (Json.record members).compact.toUTF8) ∧
      twin.find? place = some (.file (Json.record members').compact.toUTF8)) (path : String) :
    (ofFile path : Dataset α).load tree = (ofFile path : Dataset α).load twin := by
  have hread (h : tree.read (.ofText path) = twin.read (.ofText path)) :
      (ofFile path : Dataset α).load tree = (ofFile path : Dataset α).load twin := by
    simp only [ofFile, hsame.isFile_eq, h]
  have hnamed := (Path.isSplit_ofText path).isNamed_place
  -- Only a data set that is read from the one place could tell the trees apart.
  by_cases hhere : (Path.ofText path).place = place
  · rcases hresolve : twin.resolve (.ofText path) with fault | target
    · refine hread ?_
      rw [Tree.read, Tree.read, hsame.resolve_eq, hresolve]
      rfl
    obtain rfl := Tree.resolve_eq_ok hresolve
    rcases hplace with heq | ⟨members, members', hfile, hfile'⟩
    · refine hread ?_
      rw [Tree.read, Tree.read, hsame.resolve_eq, hresolve]
      simp only [bind, Except.bind, hhere, heq]
    · rw [← hhere] at hfile hfile'
      rw [load_ofFile_of_document
          (Tree.read_of_resolve ((hsame.resolve_eq _).trans hresolve) hfile),
        load_ofFile_of_document (Tree.read_of_resolve hresolve hfile')]
  · exact hread (hsame.read_eq fun h ↦ hhere (hapart _ hnamed h))

end OutlierScoring.Dataset
