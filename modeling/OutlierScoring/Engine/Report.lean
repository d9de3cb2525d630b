import OutlierScoring.Engine.Basic

/-!
# Results as documents

How summaries, predictions and the description of an engine are printed. Documents that are made up
for printing have their members in ascending order, those of a type have them in the order of its
description.
-/

namespace OutlierScoring

variable {α : Type} [Scalar α] [Numeral α]

/-- Where a training matrix came from, as a document. -/
def TrainingSource.toJson : TrainingSource → Json
  | provided => .record [("kind", .text "provided")]
  | fallback dataset => .record [("kind", .text "fallback"), ("dataset", .text dataset)]

omit [Scalar α] in
/-- The document for a summary. -/
def TrainingSummary.toJson (s : TrainingSummary α) : Json :=
  .record
    [("samples_trained", .nat s.samples), ("feature_count", .nat s.featureNames.length),
      ("feature_names", Json.Form.toJson s.featureNames),
      ("contamination", .scalar s.contamination),
      ("mean_score", .scalar s.scores.mean), ("max_score", .scalar s.scores.max),
      ("min_score", .scalar s.scores.min), ("anomaly_count", .nat s.anomalyCount),
      ("threshold", .scalar s.threshold), ("source", s.source.toJson),
      ("trained_at", Json.Form.toJson s.trainedAt)]

omit [Scalar α] in
/-- The document for the description of an engine. -/
def ModelInfo.toJson (i : ModelInfo α) : Json :=
  .record
    [("is_trained", .bool i.isTrained), ("algorithm", .text i.algorithm),
      ("feature_names", Json.Form.toJson i.featureNames),
      ("feature_count", .nat i.featureNames.length),
      ("contamination", Json.optional .scalar i.contamination),
      ("threshold", Json.optional .scalar i.threshold), ("n_estimators", .nat i.estimators),
      ("random_seed", .nat i.randomSeed), ("model_path", Json.optional .text i.modelPath),
      ("scaler_path", Json.optional .text i.scalerPath),
      ("trained_at", Json.optional Json.Form.toJson i.trainedAt)]

omit [Scalar α] in
/-- The document for statistics of scores. -/
def ScoreStats.toJson (s : ScoreStats α) : Json :=
  .record [("max", .scalar s.max), ("mean", .scalar s.mean), ("min", .scalar s.min)]

/-- The document for a prediction. -/
def Prediction.toJson (p : Prediction α) : Json :=
  .record
    [("anomaly_count", .nat p.anomalyCount), ("labels", Json.Form.toJson p.labels),
      ("scores", .scalars p.scores), ("statistics", Json.optional ScoreStats.toJson p.stats?)]

omit [Scalar α] in
/-- The document for one sequence of a batch. -/
def SequencePrediction.toJson (p : SequencePrediction α) : Json :=
  .record
    [("anomaly_count", .nat p.prediction.anomalyCount),
      ("is_anomalous", .bool p.prediction.isAnomalous),
      ("labels", Json.Form.toJson p.prediction.labels), ("scores", .scalars p.prediction.scores)]

omit [Scalar α] in
/-- The document for a batch: one member for each sequence, by its key. -/
def batchToJson (batch : List (SequencePrediction α)) : Json :=
  .record ((Json.keepLast (batch.map fun p ↦ (p.key, p.toJson))).mergeSort fun a b ↦ a.1 ≤ b.1)

end OutlierScoring
