import Tabular.Decimal.Fixed
import Tabular.Definition.Join
import Tabular.Definition.Condition
import Tabular.Join.Rows
import Tabular.Sequence.Split
import Tabular.Transform.Filter
import Tabular.Transform.Map
import Tabular.Transform.Lines
import Tabular.Reduction.Grouping
import Tabular.Statistics.Analysis
import Tabular.Run.Engine
import Tabular.Run.Permits
import Tabular.Proofs.Statistics.MergeTree
import Tabular.Proofs.Join.NestedLoop
import Tabular.Proofs.Run.Sequential
import Tabular.Proofs.Operation
import Tabular.Proofs.Statistics.SumValue
import Tabular.Proofs.Statistics.SumTree
import Tabular.Proofs.Value.Order
import Tabular.Proofs.Statistics.Report
import Tabular.Proofs.Definition.Condition
import Tabular.Proofs.Definition.Inferred
import Tabular.Proofs.Condition.Sequence
import Tabular.Proofs.KeyEquality
import Tabular.Proofs.Run.Record
import Tabular.Proofs.Definition.Restored
import Tabular.Proofs.Delimited
import Tabular.Proofs.Reduction.Statistics
import Tabular.Proofs.Join.Mirror
import Tabular.Proofs.Run.Permits
import Tabular.Proofs.Transform.Stopping
import Tabular.Proofs.Statistics.Advance
import Tabular.Proofs.Statistics.Variance
import Tabular.Proofs.Sequence.Length
import Tabular.Proofs.Sequence.Gap
import Tabular.Proofs.Join.Construction
import Tabular.Proofs.Condition.Operators
import Tabular.Proofs.Condition.Membership
import Tabular.Proofs.Condition.Threshold
import Tabular.Proofs.Condition.Duality
import Tabular.Proofs.Condition.Inference
import Tabular.Proofs.Reduction.Extreme
import Tabular.Proofs.Value.Narrowing
import Tabular.Proofs.Run.Ranges
