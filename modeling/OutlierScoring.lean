import OutlierScoring.Main
import OutlierScoring.Proofs.Engine.History
import OutlierScoring.Proofs.Engine.Restarts
import OutlierScoring.Proofs.Forest.Descent
import OutlierScoring.Proofs.Number.Exact
import OutlierScoring.Proofs.Number.Order
import OutlierScoring.Proofs.Series
import OutlierScoring.Proofs.Forest.Scores
import OutlierScoring.Proofs.Forest.Quantile
import OutlierScoring.Proofs.Engine.Predictions
import OutlierScoring.Proofs.Engine.Training
import OutlierScoring.Proofs.Engine.Thresholds
import OutlierScoring.Proofs.Engine.Restoring
import OutlierScoring.Proofs.Engine.Summaries
import OutlierScoring.Proofs.Forest.Growth
import OutlierScoring.Proofs.Forest.Saturation
import OutlierScoring.Proofs.Forest.Persistence
import OutlierScoring.Proofs.Engine.Batches
import OutlierScoring.Proofs.Csv.Numeric
import OutlierScoring.Proofs.Engine.Blame
import OutlierScoring.Proofs.Engine.OldFiles
import OutlierScoring.Proofs.Settings.Texts
import OutlierScoring.Proofs.Forest.Ranges
import OutlierScoring.Proofs.Engine.Pointwise
import OutlierScoring.Proofs.Csv.Selection
import OutlierScoring.Proofs.Forest.Accesses
import OutlierScoring.Proofs.Number.Moments
import OutlierScoring.Proofs.Standardization
import OutlierScoring.Proofs.Engine.Units
import OutlierScoring.Proofs.Engine.Level
import OutlierScoring.Proofs.Forest.Isolation
import OutlierScoring.Proofs.Scaler.Fits
import OutlierScoring.Proofs.Engine.Checks
import OutlierScoring.Proofs.Settings.Layers
import OutlierScoring.Proofs.Engine.Names
