import Tabular.Run.Duration
import Tabular.Text.Inspection

namespace Tabular

structure Metrics where
  runId : UInt64
  elapsed : UInt64
  rowsProcessed : UInt64
  chunksStarted : UInt64
  chunksFinished : UInt64
  chunksFailed : UInt64
  partitionsMerged : UInt64
  throttleWait : UInt64
  activeChunks : UInt64
  maxActiveChunks : UInt64
deriving DecidableEq

namespace Metrics

def empty : Metrics := ⟨0, 0, 0, 0, 0, 0, 0, 0, 0, 0⟩

def beginRun (m : Metrics) : Metrics := { empty with runId := m.runId + 1 }

def endRun (m : Metrics) (elapsed : UInt64) : Metrics := { m with elapsed := elapsed }

def rows (m : Metrics) (n : UInt64) : Metrics := { m with rowsProcessed := m.rowsProcessed + n }

def started (m : Metrics) : Metrics := { m with chunksStarted := m.chunksStarted + 1 }

def entered (m : Metrics) : Metrics := { m with activeChunks := m.activeChunks + 1 }

def raised (m : Metrics) (active : UInt64) : Metrics :=
  { m with maxActiveChunks := max m.maxActiveChunks active }

def ended (m : Metrics) (ok : Bool) : Metrics :=
  if ok then { m with chunksFinished := m.chunksFinished + 1 }
  else { m with chunksFailed := m.chunksFailed + 1 }

def left (m : Metrics) : Metrics := { m with activeChunks := m.activeChunks - 1 }

def chunkStart (m : Metrics) : Metrics :=
  let m := m.started.entered
  m.raised m.activeChunks

def chunkEnd (m : Metrics) (ok : Bool) : Metrics := (m.ended ok).left

def partitionMerged (m : Metrics) : Metrics :=
  { m with partitionsMerged := m.partitionsMerged + 1 }

def throttled (m : Metrics) (wait : UInt64) : Metrics :=
  { m with throttleWait := m.throttleWait + wait }

/-- The time of the run; none is known before its end. -/
def elapsed? (m : Metrics) : Option UInt64 :=
  if m.elapsed = 0 then none else some m.elapsed

def text (m : Metrics) : String :=
  "run_id=" ++ toString m.runId.toNat ++ ", rows_processed=" ++ toString m.rowsProcessed.toNat ++
    ", chunks=" ++ toString m.chunksFinished.toNat ++ "/" ++ toString m.chunksStarted.toNat ++
    " (failed " ++ toString m.chunksFailed.toNat ++ "), merged=" ++
    toString m.partitionsMerged.toNat ++ ", max_active_chunks=" ++
    toString m.maxActiveChunks.toNat ++ ", throttle_wait=" ++
    durationText m.throttleWait.toNat ++ ", elapsed=" ++
    inspectOption (m.elapsed?.map fun n => durationText n.toNat)

end Metrics

end Tabular
