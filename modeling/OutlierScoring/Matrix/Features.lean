import OutlierScoring.Json.Shaped
import OutlierScoring.Matrix.Basic

/-!
# Feature matrices

A matrix with names for its columns. `FeatureMatrix.new` checks that there is one name per column;
a document that a feature matrix is read from is taken at its word.
-/

namespace OutlierScoring

/-- A matrix and the names of its columns. -/
structure FeatureMatrix (α : Type) where
  names : List String
  values : Matrix α

namespace FeatureMatrix

variable {α : Type}

/-- The name of the only column of a series. -/
def seriesName : String := "value"

/-- A matrix with one name for each of its columns. -/
def new (names : List String) (values : Matrix α) : Outcome α (FeatureMatrix α) :=
  if names.length = values.width then .ok ⟨names, values⟩
  else .error (.featureCountMismatch names.length values.width)

/-- A series as a matrix with one column. -/
def ofSeries (series : List α) : FeatureMatrix α := ⟨[seriesName], .ofSeries series⟩

variable [Scalar α] [Numeral α]

/-- The matrix of a shaped array with two dimensions. -/
def matrix? (a : Json.Shaped α) : Option (Matrix α) :=
  match a.dims with
  | [height, width] => Matrix.ofCells? height width a.cells.toArray
  | _ => none

instance : Json.Form (FeatureMatrix α) where
  toJson m := .record
    [("feature_names", Json.Form.toJson m.names),
      ("values", Json.Shaped.toJson ⟨[m.values.height, m.values.width], m.values.cells⟩)]
  ofJson? depth j := do
    let (depth, fields) ← Json.fields? ["feature_names", "values"] depth j
    match fields with
    | [some names, some values] =>
      let names ← Json.Form.ofJson? depth names
      let values ← Json.Shaped.ofJson? 2 depth values
      return ⟨names, ← matrix? values⟩
    | _ => none

end FeatureMatrix

end OutlierScoring
