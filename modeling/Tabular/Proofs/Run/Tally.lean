import Mathlib.Algebra.GroupWithZero.Nat
import Mathlib.Data.List.Basic
import Tabular.Run.Engine

namespace Tabular

/-- What the counters of a run have counted, before they wrap around. -/
structure Tally where
  started : Nat
  finished : Nat
  failed : Nat
  merged : Nat
  rows : Nat

namespace Tally

def zero : Tally := ⟨0, 0, 0, 0, 0⟩

def finishChunk (n : Tally) (c : Chunk) : Tally :=
  { n with started := n.started + 1, finished := n.finished + 1, rows := n.rows + c.size }

def failChunk (n : Tally) : Tally :=
  { n with started := n.started + 1, failed := n.failed + 1 }

def merge (n : Tally) (parts : Nat) : Tally := { n with merged := n.merged + parts }

theorem foldl_finishChunk (chunks : List Chunk) (n : Tally) : chunks.foldl finishChunk n =
    { n with
      started := n.started + chunks.length
      finished := n.finished + chunks.length
      rows := n.rows + (chunks.map Chunk.size).sum } := by
  induction chunks generalizing n with
  | nil => rfl
  | cons c chunks ih =>
    rw [List.foldl_cons, ih, List.length_cons, List.map_cons, List.sum_cons, finishChunk,
      Nat.add_assoc, Nat.add_assoc, Nat.add_assoc, Nat.add_comm 1]

end Tally

namespace Trace

/-- The counters of a trace are the numbers of a tally in 64-bit words. -/
structure Counts (t : Trace) (n : Tally) : Prop where
  started : t.metrics.chunksStarted = .ofNat n.started
  finished : t.metrics.chunksFinished = .ofNat n.finished
  failed : t.metrics.chunksFailed = .ofNat n.failed
  merged : t.metrics.partitionsMerged = .ofNat n.merged
  rows : t.metrics.rowsProcessed = .ofNat n.rows

/-- The trace after a chunk that has finished. -/
def finishChunk (t : Trace) (c : Chunk) (outputRows : Nat) : Trace :=
  ((((t.measure Metrics.chunkStart).emit (.chunkStarted c.start c.size)).measure
    (·.chunkEnd true)).measure (·.rows c.size.toUInt64)).emit (.chunkFinished c.start outputRows)

/-- The trace after a chunk that has failed. -/
def failChunk (t : Trace) (c : Chunk) (e : Error) : Trace :=
  (((t.measure Metrics.chunkStart).emit (.chunkStarted c.start c.size)).measure
    (·.chunkEnd false)).emit (.chunkFailed c.start e.message)

/-- The trace after a part has been merged. -/
def mergePart (t : Trace) (position : Nat) : Trace :=
  (t.measure Metrics.partitionMerged).emit (.partitionMerged position)

variable {t : Trace} {n : Tally}

theorem counts_start (m : Metrics) (operation : String) (rows : Nat) :
    (start m operation rows).Counts .zero :=
  ⟨rfl, rfl, rfl, rfl, rfl⟩

theorem finishChunk_events (t : Trace) (c : Chunk) (outputRows : Nat) :
    (t.finishChunk c outputRows).events =
      t.events ++ [.chunkStarted c.start c.size, .chunkFinished c.start outputRows] :=
  List.append_assoc _ _ _

theorem failChunk_events (t : Trace) (c : Chunk) (e : Error) : (t.failChunk c e).events =
    t.events ++ [.chunkStarted c.start c.size, .chunkFailed c.start e.message] :=
  List.append_assoc _ _ _

theorem finishChunk_metrics (t : Trace) (c : Chunk) (outputRows : Nat) :
    ∃ active most, (t.finishChunk c outputRows).metrics =
      { t.metrics with
        rowsProcessed := t.metrics.rowsProcessed + .ofNat c.size
        chunksStarted := t.metrics.chunksStarted + 1
        chunksFinished := t.metrics.chunksFinished + 1
        activeChunks := active
        maxActiveChunks := most } :=
  ⟨_, _, rfl⟩

theorem failChunk_metrics (t : Trace) (c : Chunk) (e : Error) :
    ∃ active most, (t.failChunk c e).metrics =
      { t.metrics with
        chunksStarted := t.metrics.chunksStarted + 1
        chunksFailed := t.metrics.chunksFailed + 1
        activeChunks := active
        maxActiveChunks := most } :=
  ⟨_, _, rfl⟩

theorem Counts.finishChunk (h : t.Counts n) (c : Chunk) (outputRows : Nat) :
    (t.finishChunk c outputRows).Counts (n.finishChunk c) := by
  obtain ⟨active, most, hmetrics⟩ := t.finishChunk_metrics c outputRows
  constructor <;> rw [hmetrics]
  · rw [h.started]
    exact (UInt64.ofNat_add _ 1).symm
  · rw [h.finished]
    exact (UInt64.ofNat_add _ 1).symm
  · exact h.failed
  · exact h.merged
  · rw [h.rows]
    exact (UInt64.ofNat_add _ c.size).symm

theorem Counts.failChunk (h : t.Counts n) (c : Chunk) (e : Error) :
    (t.failChunk c e).Counts n.failChunk := by
  obtain ⟨active, most, hmetrics⟩ := t.failChunk_metrics c e
  constructor <;> rw [hmetrics]
  · rw [h.started]
    exact (UInt64.ofNat_add _ 1).symm
  · exact h.finished
  · rw [h.failed]
    exact (UInt64.ofNat_add _ 1).symm
  · exact h.merged
  · exact h.rows

theorem Counts.mergePart (h : t.Counts n) (position : Nat) :
    (t.mergePart position).Counts (n.merge 1) where
  started := h.started
  finished := h.finished
  failed := h.failed
  merged := by
    change t.metrics.partitionsMerged + 1 = _
    rw [h.merged]
    exact (UInt64.ofNat_add _ 1).symm
  rows := h.rows

theorem Counts.finish (h : t.Counts n) (elapsed : Nat) (failure : Option Error) :
    (t.finish elapsed failure).Counts n := by
  cases failure with
  | none => exact ⟨h.started, h.finished, h.failed, h.merged, h.rows⟩
  | some e => exact ⟨h.started, h.finished, h.failed, h.merged, h.rows⟩

end Trace

section Chunks

variable {α : Type} {work : ChunkWork α} {all : List Row} {c : Chunk} {chunks : List Chunk}
  {t : Trace} {n : Tally} {e : Error}

/-- The number of rows that work on some rows puts out. -/
def ChunkWork.outputRows (work : ChunkWork α) (rows : List Row) : Nat :=
  match work rows with
  | .ok (_, outputRows) => outputRows
  | .error _ => 0

/-- The events of a chunk that finishes. -/
def ChunkWork.events (work : ChunkWork α) (all : List Row) (c : Chunk) : List Event :=
  [.chunkStarted c.start c.size, .chunkFinished c.start (work.outputRows (c.rows all))]

theorem runChunk_of_ok {p : α × Nat} (h : work (c.rows all) = .ok p) (t : Trace) :
    runChunk work all c t = ⟨.ok p.1, t.finishChunk c (work.outputRows (c.rows all))⟩ := by
  rw [runChunk, ChunkWork.outputRows, h]
  rfl

theorem runChunk_of_error (h : work (c.rows all) = .error e) (t : Trace) :
    runChunk work all c t = ⟨.error e, t.failChunk c e⟩ := by
  rw [runChunk, h]
  rfl

theorem runChunks_finish (h : ∀ c ∈ chunks, ∃ p, work (c.rows all) = .ok p) (hn : t.Counts n) :
    ∃ outs t', runChunks work all chunks t = ⟨.ok outs, t'⟩ ∧
      t'.events = t.events ++ chunks.flatMap (work.events all) ∧
      t'.Counts (chunks.foldl Tally.finishChunk n) := by
  induction chunks generalizing t n with
  | nil => exact ⟨[], t, rfl, (List.append_nil _).symm, hn⟩
  | cons c chunks ih =>
    obtain ⟨⟨p, hp⟩, hrest⟩ := List.forall_mem_cons.1 h
    obtain ⟨outs, t', hrun, hevents, hcounts⟩ :=
      ih hrest (hn.finishChunk c (work.outputRows (c.rows all)))
    refine ⟨p.1 :: outs, t', ?_, ?_, hcounts⟩
    · rw [runChunks, runChunk_of_ok hp]
      simp only
      rw [hrun]
    · rw [hevents, Trace.finishChunk_events, List.flatMap_cons, List.append_assoc,
        ← ChunkWork.events]

theorem runChunks_fail (h : ∀ c ∈ chunks, ∃ p, work (c.rows all) = .ok p)
    (hc : work (c.rows all) = .error e) (rest : List Chunk) (hn : t.Counts n) :
    ∃ t', runChunks work all (chunks ++ c :: rest) t = ⟨.error e, t'⟩ ∧
      t'.events = t.events ++ chunks.flatMap (work.events all) ++
        [.chunkStarted c.start c.size, .chunkFailed c.start e.message] ∧
      t'.Counts (chunks.foldl Tally.finishChunk n).failChunk := by
  induction chunks generalizing t n with
  | nil =>
    refine ⟨t.failChunk c e, ?_, ?_, hn.failChunk c e⟩
    · rw [List.nil_append, runChunks, runChunk_of_error hc]
    · rw [Trace.failChunk_events, List.flatMap_nil, List.append_nil]
  | cons first chunks ih =>
    obtain ⟨⟨p, hp⟩, hrest⟩ := List.forall_mem_cons.1 h
    obtain ⟨t', hrun, hevents, hcounts⟩ :=
      ih hrest (hn.finishChunk first (work.outputRows (first.rows all)))
    refine ⟨t', ?_, ?_, hcounts⟩
    · rw [List.cons_append, runChunks, runChunk_of_ok hp]
      simp only
      rw [hrun]
    · rw [hevents, Trace.finishChunk_events, List.flatMap_cons, ← ChunkWork.events,
        List.append_assoc t.events]

end Chunks

theorem Engine.mergeAll_trace {parts : List (Option Analysis)} {total b : Option Analysis}
    {position : Nat} {t : Trace} {n : Tally} (hparts : ∀ a ∈ parts, a ≠ none)
    (hok : (mergeAll position total parts t).result = .ok b) (hn : t.Counts n) :
    (mergeAll position total parts t).trace.events =
        t.events ++ (List.range' position parts.length).map .partitionMerged ∧
      (mergeAll position total parts t).trace.Counts (n.merge parts.length) := by
  induction parts generalizing position total t n with
  | nil => exact ⟨(List.append_nil _).symm, hn⟩
  | cons a parts ih =>
    obtain ⟨ha, hrest⟩ := List.forall_mem_cons.1 hparts
    cases a with
    | none => exact absurd rfl ha
    | some a =>
      rw [mergeAll] at hok ⊢
      cases hmerge : Analysis.mergeParts total (some a) with
      | error e =>
        rw [hmerge] at hok
        cases hok
      | ok merged =>
        rw [hmerge] at hok
        obtain ⟨hevents, hcounts⟩ := ih hrest hok (hn.mergePart position)
        constructor
        · refine hevents.trans ?_
          simp [Trace.emit, Trace.measure, List.range'_succ]
        · have hmerged : (n.merge 1).merge parts.length = n.merge (parts.length + 1) := by
            rw [Tally.merge, Tally.merge, Tally.merge, Nat.add_assoc, Nat.add_comm 1]
          rw [hmerged] at hcounts
          exact hcounts

end Tabular
