import Tabular.Reduction.Accumulator
import Tabular.Run.Chunk
import Tabular.Run.Event
import Tabular.Statistics.Analysis
import Tabular.Transform.Filter
import Tabular.Transform.Map

namespace Tabular

structure Options where
  /-- The number of workers, or none to leave the choice to the platform. -/
  threads : Option Nat
  chunkSize : Nat
  /-- How many chunks may be worked on at once. -/
  inFlight : Nat
deriving DecidableEq

namespace Options

def standard (parallelism : Nat) : Options := ⟨some parallelism, 4096, parallelism⟩

/-- No setting may be zero. -/
def validate (o : Options) : Except Error Unit :=
  if o.chunkSize = 0 then .error (.argument .zeroChunkSize)
  else if o.inFlight = 0 then .error (.argument .zeroInFlight)
  else if o.threads = some 0 then .error (.argument .zeroThreads)
  else .ok ()

end Options

structure Engine where
  options : Options
  metrics : Metrics
deriving DecidableEq

/-- The counters and the events of a run so far, the first event first. -/
structure Trace where
  metrics : Metrics
  events : List Event
deriving DecidableEq

structure Outcome (α : Type) where
  result : Except Error α
  trace : Trace

namespace Trace

def emit (t : Trace) (e : Event) : Trace := { t with events := t.events ++ [e] }

def measure (t : Trace) (f : Metrics → Metrics) : Trace := { t with metrics := f t.metrics }

def start (m : Metrics) (operation : String) (rows : Nat) : Trace :=
  ⟨m.beginRun, [.runStarted operation rows]⟩

/-- A run ends after some nanoseconds, with or without an error. The counter of a run too long for
its word stays at the greatest word. -/
def finish (t : Trace) (elapsed : Nat) (failure : Option Error) : Trace :=
  let t := t.measure (·.endRun (UInt64.ofNatClamp elapsed))
  match failure with
  | none => t.emit (.runFinished elapsed t.metrics)
  | some e => t.emit (.runFailed elapsed e.message)

end Trace

def failureOf {α : Type} : Except Error α → Option Error
  | .ok _ => none
  | .error e => some e

/-- Work on the rows of a chunk: an output, and the number of rows in it. -/
abbrev ChunkWork (α : Type) := List Row → Except Error (α × Nat)

def runChunk {α : Type} (work : ChunkWork α) (all : List Row) (c : Chunk) (t : Trace) :
    Outcome α :=
  let t := (t.measure Metrics.chunkStart).emit (.chunkStarted c.start c.size)
  match work (c.rows all) with
  | .ok (out, outputRows) =>
    ⟨.ok out, ((t.measure (·.chunkEnd true)).measure (·.rows c.size.toUInt64)).emit
      (.chunkFinished c.start outputRows)⟩
  | .error e =>
    ⟨.error e, (t.measure (·.chunkEnd false)).emit (.chunkFailed c.start e.message)⟩

/-- Works on some chunks, up to the first that fails. -/
def runChunks {α : Type} (work : ChunkWork α) (all : List Row) :
    List Chunk → Trace → Outcome (List α)
  | [], t => ⟨.ok [], t⟩
  | c :: rest, t =>
    match runChunk work all c t with
    | ⟨.error e, t⟩ => ⟨.error e, t⟩
    | ⟨.ok out, t⟩ =>
      match runChunks work all rest t with
      | ⟨.error e, t⟩ => ⟨.error e, t⟩
      | ⟨.ok outs, t⟩ => ⟨.ok (out :: outs), t⟩

namespace Engine

def ofOptions (o : Options) : Except Error Engine := o.validate.map fun _ => ⟨o, .empty⟩

/-- Runs an operation over all chunks and puts their outputs together. -/
def run {α β : Type} (e : Engine) (operation : String) (d : Dataset) (work : ChunkWork α)
    (combine : List α → Trace → Outcome β) (elapsed : Nat) : Outcome β :=
  let t := Trace.start e.metrics operation d.rowCount
  let chunks := Chunk.ranges d.rowCount e.options.chunkSize
  let out : Outcome β := match runChunks work d.rows chunks t with
    | ⟨.ok outs, t⟩ => combine outs t
    | ⟨.error err, t⟩ => ⟨.error err, t⟩
  { out with trace := out.trace.finish elapsed (failureOf out.result) }

def counted (rows : List Row) : List Row × Nat := (rows, rows.length)

/-- The rows of all chunks under the schema of a dataset. -/
def concat (d : Dataset) (outs : List (List Row)) (t : Trace) : Outcome Dataset :=
  ⟨.ok { d with rows := outs.flatten }, t⟩

def keepRows (p : Row → Bool) : ChunkWork (List Row) := fun rows => .ok (counted (rows.filter p))

def filterRows (e : Engine) (d : Dataset) (p : Row → Bool) (elapsed : Nat) : Outcome Dataset :=
  e.run "filter" d (keepRows p) (concat d) elapsed

def keepWhere (b : BoundCondition) : ChunkWork (List Row) :=
  fun rows => (b.select true rows).map counted

/-- Keeps the rows that satisfy a condition. A condition that does not fit the schema is refused
before the run begins. -/
def filterWhere (e : Engine) (d : Dataset) (c : Condition) (elapsed : Nat) : Outcome Dataset :=
  match c.bind d.schema with
  | .error err => ⟨.error err, ⟨e.metrics, []⟩⟩
  | .ok b =>
    e.run "filter_condition" d (keepWhere b) (concat d) elapsed

def changeRows (schema : Schema) (f : Row → Row) : ChunkWork (List Row) :=
  fun rows => (rows.mapM (schema.mapRow f)).map counted

def mapRows (e : Engine) (d : Dataset) (f : Row → Row) (elapsed : Nat) : Outcome Dataset :=
  e.run "map" d (changeRows d.schema f) (concat d) elapsed

/-- The analysis of the rows of a chunk; a chunk without rows has none. -/
def analyzeChunk (schema : Schema) : ChunkWork (Option Analysis) :=
  fun rows => (Analysis.foldRows none schema rows).map (·, 0)

/-- Merges the analyses of all chunks from the first to the last, `position` being the number of the
next one. -/
def mergeAll (position : Nat) (total : Option Analysis) :
    List (Option Analysis) → Trace → Outcome (Option Analysis)
  | [], t => ⟨.ok total, t⟩
  | none :: rest, t => mergeAll (position + 1) total rest t
  | some a :: rest, t =>
    match Analysis.mergeParts total (some a) with
    | .error e => ⟨.error e, t⟩
    | .ok total =>
      mergeAll (position + 1) total rest
        ((t.measure Metrics.partitionMerged).emit (.partitionMerged position))

def reportAll (schema : Schema) (parts : List (Option Analysis)) (t : Trace) : Outcome Report :=
  match mergeAll 0 none parts t with
  | ⟨.ok total, t⟩ => ⟨(total.getD (Analysis.ofSchema schema)).report schema, t⟩
  | ⟨.error e, t⟩ => ⟨.error e, t⟩

/-- The statistics of a dataset, with one analysis per chunk. -/
def analyze (e : Engine) (d : Dataset) (elapsed : Nat) : Outcome Report :=
  e.run "analyze" d (analyzeChunk d.schema) (reportAll d.schema) elapsed

def reduce (e : Engine) (d : Dataset) (column : String) (r : Reduction) (elapsed : Nat) :
    Outcome Value :=
  let result := d.reduce column r
  let t := ((Trace.start e.metrics "reduce" d.rowCount).emit (.reduceStarted column r)).emit
    (.reduceFinished result.toOption)
  let t := match result with
    | .ok _ => t.measure (·.rows d.rowCount.toUInt64)
    | .error _ => t
  ⟨result, t.finish elapsed (failureOf result)⟩

end Engine

end Tabular
