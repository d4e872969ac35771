import Tabular.Reduction.Operation
import Tabular.Run.Log
import Tabular.Run.Metrics
import Tabular.Value.Text

namespace Tabular

inductive Event where
  | runStarted (operation : String) (rows : Nat)
  | throttleWaited (wait : Nat)
  | chunkStarted (start rows : Nat)
  | chunkFinished (start outputRows : Nat)
  | chunkFailed (start : Nat) (message : String)
  | reduceStarted (column : String) (reduction : Reduction)
  | reduceFinished (result : Option Value)
  | partitionMerged (partition : Nat)
  | runFinished (elapsed : Nat) (metrics : Metrics)
  | runFailed (elapsed : Nat) (message : String)
deriving DecidableEq

def Event.record : Event → LogRecord
  | runStarted operation rows =>
    ⟨.info, operation ++ " started over " ++ toString rows ++ " rows"⟩
  | throttleWaited wait =>
    ⟨.debug, inspectFields "ThrottleWaited" [("duration", durationText wait)]⟩
  | chunkStarted start rows =>
    ⟨.debug, inspectFields "ChunkStarted" [("start_row", toString start),
      ("row_count", toString rows)]⟩
  | chunkFinished start outputRows =>
    ⟨.debug, inspectFields "ChunkFinished" [("start_row", toString start),
      ("output_rows", toString outputRows)]⟩
  | chunkFailed start message =>
    ⟨.warn, "chunk at row " ++ toString start ++ " failed: " ++ message⟩
  | reduceStarted column reduction =>
    ⟨.debug, inspectFields "ReduceStarted" [("column", inspectText column),
      ("op", reduction.inspect)]⟩
  | reduceFinished result =>
    ⟨.debug, inspectFields "ReduceFinished" [("result", inspectOption (result.map Value.inspect))]⟩
  | partitionMerged partition =>
    ⟨.debug, inspectFields "PartitionMerged" [("partition", toString partition)]⟩
  | runFinished elapsed metrics =>
    ⟨.info, "run finished in " ++ durationText elapsed ++ ": " ++ metrics.text⟩
  | runFailed elapsed message =>
    ⟨.warn, "run failed after " ++ durationText elapsed ++ ": " ++ message⟩

end Tabular
