import OutlierScoring.Proofs.Csv.Numeric
import OutlierScoring.Proofs.Json.Arrays
import OutlierScoring.Proofs.Matrix.Cells
import OutlierScoring.Proofs.Number.Floats

/-!
# Names of columns

A feature matrix comes from names and values, from a series, from a table file, from a document, or
from a data set that was given another one. Each of these ways but one makes sure that there is one
name per column: the document of a feature matrix is read as it stands. So the matrices that can be
obtained are those with one name per column, and with any names at all those whose values can be
stored (`FeatureMatrix.obtained_iff`).
-/

namespace OutlierScoring

variable {α : Type}

namespace FeatureMatrix

variable {m : FeatureMatrix α}

/-- There is one name per column. -/
def IsNamed (m : FeatureMatrix α) : Prop := m.names.length = m.values.width

instance (m : FeatureMatrix α) : Decidable m.IsNamed :=
  inferInstanceAs (Decidable (m.names.length = m.values.width))

theorem new_eq_ok_iff {names : List String} {values : Matrix α} :
    new names values = .ok m ↔ m = ⟨names, values⟩ ∧ m.IsNamed := by
  rw [new]
  split
  · rename_i hnamed
    constructor
    · intro h
      obtain rfl := Except.ok.inj h
      exact ⟨rfl, hnamed⟩
    · rintro ⟨rfl, -⟩
      rfl
  · rename_i hnamed
    constructor
    · intro h
      cases h
    · rintro ⟨rfl, h⟩
      exact absurd h hnamed

end FeatureMatrix

/-! ### Values -/

variable [Scalar α]

/-- The matrix can be stored: memory can hold its cells, and all of them are finite. -/
structure Matrix.IsStorable (m : Matrix α) : Prop where
  extents_lt : max m.height 1 * max m.width 1 < UInt64.size / 2
  isFinite : m.IsFinite

/-- A matrix can be stored exactly if the array of its cells can. -/
theorem Matrix.isStorable_iff (m : Matrix α) :
    m.IsStorable ↔ (⟨[m.height, m.width], m.cells⟩ : Json.Shaped α).IsStorable := by
  have hfinite : m.IsFinite ↔ ∀ x ∈ m.cells, Scalar.isFinite x = true := by
    rw [IsFinite, cells]
    simp only [List.forall_mem_flatMap]
  constructor
  · rintro ⟨hextents, hcells⟩
    exact ⟨by simpa using hextents, by simpa using length_cells m, hfinite.mp hcells⟩
  · rintro ⟨hextents, -, hcells⟩
    exact ⟨by simpa using hextents, hfinite.mpr hcells⟩

namespace FeatureMatrix

variable {m : FeatureMatrix α}

/-! ### Documents -/

variable [Numeral α]

omit [Scalar α] [Numeral α] in
theorem matrix?_eq_some_iff {a : Json.Shaped α} {values : Matrix α} (hrank : a.dims.length = 2) :
    matrix? a = some values ↔ a = ⟨[values.height, values.width], values.cells⟩ := by
  obtain ⟨dims, cells⟩ := a
  obtain ⟨height, width, rfl⟩ := List.length_eq_two.mp hrank
  rw [matrix?, Matrix.ofCells?_eq_some_iff]
  simp [eq_comm, and_assoc]

/-- Whatever the text is, the values that are read from it can be stored. -/
theorem isStorable_of_read? {text : String} (h : Json.Form.read? text = some m) :
    m.values.IsStorable := by
  obtain ⟨j, -, h⟩ := Option.bind_eq_some_iff.mp h
  obtain ⟨⟨depth, fields⟩, -, h⟩ := Option.bind_eq_some_iff.mp h
  simp only at h
  split at h
  · obtain ⟨names, -, h⟩ := Option.bind_eq_some_iff.mp h
    obtain ⟨a, ha, h⟩ := Option.bind_eq_some_iff.mp h
    obtain ⟨values, hvalues, h⟩ := Option.bind_eq_some_iff.mp h
    obtain rfl := Option.some.inj h
    obtain ⟨hrank, hstorable⟩ := Json.Shaped.isStorable_of_ofJson? ha
    rw [(matrix?_eq_some_iff hrank).mp hvalues] at hstorable
    exact (Matrix.isStorable_iff values).mpr hstorable
  · cases h

/-- The names are read first, and nothing compares them to the values. -/
theorem ofJson?_toJson (depth : Nat) (m : FeatureMatrix α) :
    (Json.Form.ofJson? (depth + 1) (Json.Form.toJson m).canonical : Option (FeatureMatrix α)) =
      (do
        let names ← Json.Form.ofJson? depth (Json.Form.toJson m.names).canonical
        let values ← Json.Shaped.ofJson? 2 depth
          (Json.Shaped.toJson ⟨[m.values.height, m.values.width], m.values.cells⟩).canonical
        return ⟨names, ← matrix? values⟩) := by
  simp only [Json.Form.ofJson?, Json.Form.toJson]
  rw [Json.fields?_record ["feature_names", "values"] rfl (by decide) depth, Option.bind_eq_bind,
    Option.bind_some]
  rfl

theorem nesting_toJson_le (m : FeatureMatrix α) : (Json.Form.toJson m).nesting ≤ 3 := by
  refine Json.nesting_record_le ?_
  intro member hmember
  simp only [List.mem_cons, List.not_mem_nil, or_false] at hmember
  rcases hmember with rfl | rfl
  · exact (Json.nesting_list_le fun (_ : String) _ ↦ Nat.le_refl 0).trans (by decide)
  · exact Json.Shaped.nesting_toJson_le _

variable [LawfulNumeral α]

/-- Whatever the names are, a feature matrix is read back from its document exactly if its values
can be stored. -/
theorem reads_features (m : FeatureMatrix α) :
    Json.Reads (Json.Form.read? (Json.Form.toJson m).compact) m m.values.IsStorable := by
  refine Json.reads_compact ?_ fun _ ↦ (nesting_toJson_le m).trans (by decide)
  show Json.Reads (Json.Form.ofJson? (Json.depthLimit - 3 + 2 + 1) _) _ _
  have hvalues : Json.Reads (matrix? ⟨[m.values.height, m.values.width], m.values.cells⟩) m.values
      True := by
    rw [(matrix?_eq_some_iff rfl).mpr rfl]
    exact Json.reads_some _
  rw [ofJson?_toJson]
  refine Json.Reads.congr ((Json.reads_texts _ m.names).bind
    ((Json.Shaped.reads_array _ ⟨[m.values.height, m.values.width], m.values.cells⟩).bind
      (hvalues.bind (Json.reads_some _)))) ?_
  rw [Matrix.isStorable_iff]
  tauto

/-! ### Ways to a matrix -/

/-- The ways in which feature matrices come about. -/
inductive Obtained {α : Type} [Scalar α] [Numeral α] : FeatureMatrix α → Prop
  | new {names : List String} {values : Matrix α} {m : FeatureMatrix α} :
      FeatureMatrix.new names values = .ok m → Obtained m
  | ofSeries (series : List α) : Obtained (.ofSeries series)
  | read {text : String} {m : FeatureMatrix α} : Json.Form.read? text = some m → Obtained m
  | ofFile {path : String} {tree : Files.Tree} {m : FeatureMatrix α} :
      (Dataset.ofFile path).load tree = .ok m → Obtained m
  | ofMatrix {name : String} {tree : Files.Tree} {m loaded : FeatureMatrix α} :
      Obtained m → (Dataset.ofMatrix name m).load tree = .ok loaded → Obtained loaded

end FeatureMatrix

/-- The data set is a table file, or a matrix that was obtained. -/
inductive Dataset.IsSupply [Numeral α] : Dataset α → Prop
  | ofFile (path : String) : IsSupply (.ofFile path)
  | ofMatrix (name : String) {m : FeatureMatrix α} : m.Obtained → IsSupply (.ofMatrix name m)

namespace Dataset

omit [Scalar α] in
/-- A matrix at hand is loaded as it is. -/
theorem eq_of_load_ofMatrix {name : String} {tree : Files.Tree} {m loaded : FeatureMatrix α}
    (h : (ofMatrix name m).load tree = .ok loaded) : loaded = m := by
  simp only [ofMatrix] at h
  split at h
  · cases h
  · split at h
    · cases h
    · exact (Except.ok.inj h).symm

theorem IsSupply.obtained [Numeral α] {dataset : Dataset α} (h : dataset.IsSupply)
    {tree : Files.Tree} {m : FeatureMatrix α} (hload : dataset.load tree = .ok m) :
    m.Obtained := by
  cases h with
  | ofFile path => exact .ofFile hload
  | ofMatrix name hm => exact .ofMatrix hm hload

/-- Only a matrix at hand can have another number of names than of columns. -/
theorem IsSupply.exists_eq_ofMatrix [Numeral α] {dataset : Dataset α} (h : dataset.IsSupply)
    {tree : Files.Tree} {m : FeatureMatrix α} (hload : dataset.load tree = .ok m)
    (hnamed : ¬m.IsNamed) : ∃ name, dataset = .ofMatrix name m := by
  cases h with
  | ofFile path => exact absurd (length_names_of_load hload) hnamed
  | ofMatrix name hm => exact ⟨name, by rw [eq_of_load_ofMatrix hload]⟩

end Dataset

namespace FeatureMatrix

variable [Numeral α] {m : FeatureMatrix α}

/-- Every way but the one through a document makes sure of the names, and a document makes sure of
the values. -/
theorem Obtained.isNamed_or_isStorable (h : m.Obtained) : m.IsNamed ∨ m.values.IsStorable := by
  induction h with
  | new h => exact .inl (new_eq_ok_iff.mp h).2
  | ofSeries series => exact .inl rfl
  | read h => exact .inr (isStorable_of_read? h)
  | ofFile h => exact .inl (Dataset.length_names_of_load h)
  | ofMatrix _ hload ih => exact Dataset.eq_of_load_ofMatrix hload ▸ ih

/-- A matrix can be obtained exactly if it has one name per column or, with any names at all, can be
stored. -/
theorem obtained_iff [LawfulNumeral α] : m.Obtained ↔ m.IsNamed ∨ m.values.IsStorable := by
  refine ⟨Obtained.isNamed_or_isStorable, ?_⟩
  rintro (hnamed | hstorable)
  · exact .new (new_eq_ok_iff.mpr ⟨rfl, hnamed⟩)
  · exact .read ((reads_features m).eq_some hstorable)

/-- Two names for one column. -/
example : ((Json.Form.read? ("\x7b\"feature_names\":[\"a\",\"b\"]," ++
      "\"values\":\x7b\"v\":1,\"dim\":[2,1],\"data\":[1,2.5]\x7d\x7d") :
    Option (FeatureMatrix Float)).map fun m ↦ (m.names, m.values.width)) =
      some (["a", "b"], 1) := by
  decide +kernel

end FeatureMatrix

end OutlierScoring
