import OutlierScoring.Forest.Basic
import OutlierScoring.Json.Form

/-!
# Forests in documents

How forests and their parameters are kept in documents. A node is a record of its five fields, and
an absent tree is `null`. Reading checks the form and nothing else: children without a feature, a
feature without children or sizes that do not add up are taken as they are.
-/

namespace OutlierScoring

variable {α : Type} [Scalar α] [Numeral α]

namespace IsolationTree

/-- The document for a tree. -/
def toJson : IsolationTree α → Json
  | .absent => .null
  | .node feature threshold size left right => .record
    [("split_feature", Json.optional .nat feature), ("split_value", .scalar threshold),
      ("size", .nat size), ("left", left.toJson), ("right", right.toJson)]

/-- The node that a document stands for, going down at most `depth` levels. A field that may be
absent may be left out. -/
def ofJson? : (depth : Nat) → Json → Option (IsolationTree α)
  | 0, _ => none
  | depth + 1, j => do
    let names := ["split_feature", "split_value", "size", "left", "right"]
    let (_, fields) ← Json.fields? names (depth + 1) j
    match fields with
    | [feature, some threshold, some size, left, right] =>
      let feature ← Json.optional? Json.nat? (feature.getD .null)
      let threshold ← Json.scalar? threshold
      let size ← Json.nat? size
      let left ← Json.optional? (ofJson? depth) (left.getD .null)
      let right ← Json.optional? (ofJson? depth) (right.getD .null)
      return .node feature threshold size (left.getD .absent) (right.getD .absent)
    | _ => none

/-- The tree of a record that has it as its only field. -/
def ofRootJson? (depth : Nat) (j : Json) : Option (IsolationTree α) := do
  let (depth, fields) ← Json.fields? ["root"] depth j
  match fields with
  | [some root] => ofJson? depth root
  | _ => none

end IsolationTree

instance : Json.Form (Forest α) where
  toJson forest := .record
    [("trees", .list (forest.trees.map fun tree ↦ .record [("root", tree.toJson)])),
      ("subsample_size", .nat forest.sampleSize), ("n_features", .nat forest.features),
      ("contamination", .scalar forest.contamination), ("offset", .scalar forest.offset)]
  ofJson? depth j := do
    let names := ["trees", "subsample_size", "n_features", "contamination", "offset"]
    let (depth, fields) ← Json.fields? names depth j
    match fields with
    | [some trees, some sampleSize, some features, some contamination, some offset] =>
      let trees ← Json.list? depth IsolationTree.ofRootJson? trees
      let sampleSize ← Json.nat? sampleSize
      let features ← Json.nat? features
      let contamination ← Json.scalar? contamination
      let offset ← Json.scalar? offset
      return { trees, sampleSize, features, contamination, offset }
    | _ => none

/-- The document for the parameters of a forest. -/
def ForestParams.toJson (p : ForestParams α) : Json :=
  .record
    [("n_estimators", .nat p.estimators), ("max_samples", .nat p.sampleLimit),
      ("contamination", .scalar p.contamination), ("random_seed", .nat p.randomSeed),
      ("n_jobs", Json.optional .nat p.workers)]

end OutlierScoring
