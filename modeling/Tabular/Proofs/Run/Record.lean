import Tabular.Proofs.Run.Analyze
import Tabular.Proofs.Run.Tally

namespace Tabular

namespace Event

def isChunkStarted : Event → Bool
  | chunkStarted _ _ => true
  | _ => false

def isChunkFinished : Event → Bool
  | chunkFinished _ _ => true
  | _ => false

def isChunkFailed : Event → Bool
  | chunkFailed _ _ => true
  | _ => false

def isPartitionMerged : Event → Bool
  | partitionMerged _ => true
  | _ => false

end Event

theorem Dataset.parts_ne_nil (d : Dataset) {size : Nat} (hsize : 0 < size) :
    ∀ rows ∈ d.parts size, rows ≠ [] := by
  rintro rows hrows rfl
  rw [parts, Chunk.ranges_eq, List.map_map] at hrows
  obtain ⟨i, hi, hrows⟩ := List.mem_map.1 hrows
  have hlt := (Chunk.lt_number hsize).1 (List.mem_range.1 hi)
  have hlength := congrArg List.length ((d.ofNumber_rows size i).symm.trans hrows)
  rw [chunk, List.length_take, List.length_drop, List.length_nil, ← rowCount] at hlength
  omega

/-- A function on numbers has results up to a bound, or fails first for one below it. -/
theorem forall_ok_or_first_error {ε β : Type} (f : Nat → Except ε β) (count : Nat) :
    (∀ i < count, ∃ y, f i = .ok y) ∨
      ∃ k e, k < count ∧ (∀ i < k, ∃ y, f i = .ok y) ∧ f k = .error e := by
  induction count with
  | zero => exact .inl fun i hi => absurd hi (Nat.not_lt_zero i)
  | succ count ih =>
    rcases ih with hall | ⟨k, e, hk, hbefore, herror⟩
    · cases hcount : f count with
      | error e => exact .inr ⟨count, e, Nat.lt_succ_self count, hall, hcount⟩
      | ok y =>
        left
        intro i hi
        rcases Nat.lt_succ_iff_lt_or_eq.1 hi with hlt | rfl
        · exact hall i hlt
        · exact ⟨y, hcount⟩
    · exact .inr ⟨k, e, Nat.lt_succ_of_lt hk, hbefore, herror⟩

/-- The events of the first chunks of a dataset, which finish. -/
def ChunkWork.finishedEvents {α : Type} (work : ChunkWork α) (d : Dataset) (size count : Nat) :
    List Event :=
  (List.range count).flatMap fun i =>
    [.chunkStarted (i * size) (min size (d.rowCount - i * size)),
      .chunkFinished (i * size) (work.outputRows (d.chunk size i))]

/-- The counters of a trace are the numbers of its events, and the rows counted are those of the
finished chunks. -/
structure Trace.Tallied (n size : Nat) (t : Trace) : Prop where
  started : t.metrics.chunksStarted.toNat = t.events.countP Event.isChunkStarted
  finished : t.metrics.chunksFinished.toNat = t.events.countP Event.isChunkFinished
  failed : t.metrics.chunksFailed.toNat = t.events.countP Event.isChunkFailed
  merged : t.metrics.partitionsMerged.toNat = t.events.countP Event.isPartitionMerged
  rows : t.metrics.rowsProcessed.toNat =
    ((List.range (t.events.countP Event.isChunkFinished)).map fun i => min size (n - i * size)).sum

namespace Outcome

variable {α β : Type}

/-- The record of a run that works on all chunks, merges some parts and succeeds. -/
structure Finished (operation : String) (work : ChunkWork α) (d : Dataset)
    (size merges elapsed : Nat) (o : Outcome β) : Prop where
  result : ∃ out, o.result = .ok out
  works : ∀ i < Chunk.number d.rowCount size, ∃ p, work (d.chunk size i) = .ok p
  events : o.trace.events = .runStarted operation d.rowCount ::
    (work.finishedEvents d size (Chunk.number d.rowCount size) ++
      (List.range merges).map .partitionMerged ++ [.runFinished elapsed o.trace.metrics])
  rows : o.trace.metrics.rowsProcessed.toNat = d.rowCount

/-- The record of a run that fails with the error of the first chunk that fails. -/
structure Failed (operation : String) (work : ChunkWork α) (d : Dataset) (size elapsed k : Nat)
    (e : Error) (o : Outcome β) : Prop where
  result : o.result = .error e
  starts : k * size < d.rowCount
  works : ∀ i < k, ∃ p, work (d.chunk size i) = .ok p
  fails : work (d.chunk size k) = .error e
  events : o.trace.events = .runStarted operation d.rowCount ::
    (work.finishedEvents d size k ++
      [.chunkStarted (k * size) (min size (d.rowCount - k * size)),
        .chunkFailed (k * size) e.message, .runFailed elapsed e.message])
  rows : o.trace.metrics.rowsProcessed.toNat = k * size

/-- A run has the record of its success or of its failure, and its counters are those of its events.
-/
def Recorded (operation : String) (work : ChunkWork α) (d : Dataset) (size merges elapsed : Nat)
    (o : Outcome β) : Prop :=
  o.trace.Tallied d.rowCount size ∧
    (o.Finished operation work d size merges elapsed ∨
      ∃ k e, o.Failed operation work d size elapsed k e)

end Outcome

section Events

variable {α : Type} (work : ChunkWork α) (d : Dataset) (size count : Nat)

theorem ChunkWork.flatMap_events :
    ((List.range count).map (Chunk.ofNumber d.rowCount size)).flatMap (work.events d.rows) =
      work.finishedEvents d size count := by
  rw [List.flatMap_map]
  apply List.flatMap_congr
  intro i _
  rw [events, Chunk.ofNumber_size, Dataset.ofNumber_rows]
  rfl

theorem ChunkWork.countP_finishedEvents :
    (work.finishedEvents d size count).countP Event.isChunkStarted = count ∧
      (work.finishedEvents d size count).countP Event.isChunkFinished = count ∧
      (work.finishedEvents d size count).countP Event.isChunkFailed = 0 ∧
      (work.finishedEvents d size count).countP Event.isPartitionMerged = 0 := by
  rw [finishedEvents]
  induction count with
  | zero => exact ⟨rfl, rfl, rfl, rfl⟩
  | succ count ih =>
    obtain ⟨hstarted, hfinished, hfailed, hmerged⟩ := ih
    rw [List.range_succ, List.flatMap_append, List.countP_append, List.countP_append,
      List.countP_append, List.countP_append, hstarted, hfinished, hfailed, hmerged,
      List.flatMap_singleton]
    exact ⟨rfl, rfl, rfl, rfl⟩

theorem countP_partitionMerged :
    ((List.range count).map Event.partitionMerged).countP Event.isChunkStarted = 0 ∧
      ((List.range count).map Event.partitionMerged).countP Event.isChunkFinished = 0 ∧
      ((List.range count).map Event.partitionMerged).countP Event.isChunkFailed = 0 ∧
      ((List.range count).map Event.partitionMerged).countP Event.isPartitionMerged = count := by
  induction count with
  | zero => exact ⟨rfl, rfl, rfl, rfl⟩
  | succ count ih =>
    obtain ⟨hstarted, hfinished, hfailed, hmerged⟩ := ih
    rw [List.range_succ, List.map_append, List.countP_append, List.countP_append,
      List.countP_append, List.countP_append, hstarted, hfinished, hfailed, hmerged]
    exact ⟨rfl, rfl, rfl, rfl⟩

end Events

/-- Counters that have counted the events of a trace without wrapping around tell their numbers. -/
theorem Trace.Counts.tallied {t : Trace} {n : Tally} (h : t.Counts n) {count size : Nat}
    (started : t.events.countP Event.isChunkStarted = n.started)
    (finished : t.events.countP Event.isChunkFinished = n.finished)
    (failed : t.events.countP Event.isChunkFailed = n.failed)
    (merged : t.events.countP Event.isPartitionMerged = n.merged)
    (rows : n.rows = ((List.range n.finished).map fun i => min size (count - i * size)).sum)
    (few : n.started < 2 ^ 64 ∧ n.finished < 2 ^ 64 ∧ n.failed < 2 ^ 64 ∧ n.merged < 2 ^ 64 ∧
      n.rows < 2 ^ 64) : t.Tallied count size where
  started := by rw [h.started, started, UInt64.toNat_ofNat_of_lt' few.1]
  finished := by rw [h.finished, finished, UInt64.toNat_ofNat_of_lt' few.2.1]
  failed := by rw [h.failed, failed, UInt64.toNat_ofNat_of_lt' few.2.2.1]
  merged := by rw [h.merged, merged, UInt64.toNat_ofNat_of_lt' few.2.2.2.1]
  rows := by rw [h.rows, finished, ← rows, UInt64.toNat_ofNat_of_lt' few.2.2.2.2]

section Tallied

variable {α : Type} {work : ChunkWork α} {d : Dataset} {size : Nat} {t : Trace} {operation : String}
  {elapsed : Nat}

theorem Trace.Counts.tallied_finished {merges : Nat} {m : Metrics} (hsize : 0 < size)
    (few : d.rowCount < 2 ^ 64) (hmerges : merges ≤ Chunk.number d.rowCount size)
    (h : t.Counts
      ⟨Chunk.number d.rowCount size, Chunk.number d.rowCount size, 0, merges, d.rowCount⟩)
    (hevents : t.events = .runStarted operation d.rowCount ::
      (work.finishedEvents d size (Chunk.number d.rowCount size) ++
        (List.range merges).map .partitionMerged ++ [.runFinished elapsed m])) :
    t.Tallied d.rowCount size := by
  obtain ⟨hstarted, hfinished, hfailed, hnone⟩ :=
    work.countP_finishedEvents d size (Chunk.number d.rowCount size)
  obtain ⟨hstarted', hfinished', hfailed', hmerged⟩ := countP_partitionMerged merges
  have hnumber := Chunk.number_le (n := d.rowCount) hsize
  apply h.tallied
  · simp [hevents, List.countP_append, hstarted, hstarted', Event.isChunkStarted]
  · simp [hevents, List.countP_append, hfinished, hfinished', Event.isChunkFinished]
  · simp [hevents, List.countP_append, hfailed, hfailed', Event.isChunkFailed]
  · simp [hevents, List.countP_append, hnone, hmerged, Event.isPartitionMerged]
  · rw [Chunk.sum_sizes]
    exact (Nat.min_eq_right (Chunk.le_number_mul hsize)).symm
  · simp only
    omega

theorem Trace.Counts.tallied_failed {k : Nat} {message : String} (hsize : 0 < size)
    (few : d.rowCount < 2 ^ 64) (hk : k < Chunk.number d.rowCount size)
    (h : t.Counts ⟨k + 1, k, 1, 0, k * size⟩)
    (hevents : t.events = .runStarted operation d.rowCount ::
      (work.finishedEvents d size k ++
        [.chunkStarted (k * size) (min size (d.rowCount - k * size)),
          .chunkFailed (k * size) message, .runFailed elapsed message])) :
    t.Tallied d.rowCount size := by
  obtain ⟨hstarted, hfinished, hfailed, hmerged⟩ := work.countP_finishedEvents d size k
  have hlt := (Chunk.lt_number hsize).1 hk
  have hnumber := Chunk.number_le (n := d.rowCount) hsize
  apply h.tallied
  · simp [hevents, List.countP_append, List.countP_cons, hstarted, Event.isChunkStarted]
  · simp [hevents, List.countP_append, hfinished, Event.isChunkFinished]
  · simp [hevents, List.countP_append, List.countP_cons, hfailed, Event.isChunkFailed]
  · simp [hevents, List.countP_append, hmerged, Event.isPartitionMerged]
  · rw [Chunk.sum_sizes]
    exact (Nat.min_eq_left (Nat.le_of_lt hlt)).symm
  · simp only
    omega

end Tallied

section Run

variable {α β : Type} {work : ChunkWork α} {d : Dataset} {size merges : Nat} {t : Trace} {n : Tally}

theorem works_iff {count : Nat} :
    (∀ c ∈ (List.range count).map (Chunk.ofNumber d.rowCount size),
      ∃ p, work (c.rows d.rows) = .ok p) ↔ ∀ i < count, ∃ p, work (d.chunk size i) = .ok p := by
  simp only [List.forall_mem_map, List.mem_range, Dataset.ofNumber_rows]

theorem Tally.foldl_ofNumber (count rows size : Nat) :
    ((List.range count).map (Chunk.ofNumber rows size)).foldl finishChunk zero =
      ⟨count, count, 0, 0, min (count * size) rows⟩ := by
  have hsizes : ((List.range count).map (Chunk.ofNumber rows size)).map Chunk.size =
      (List.range count).map fun i => min size (rows - i * size) := by
    rw [List.map_map]
    apply List.map_congr_left
    intro i _
    exact Chunk.ofNumber_size rows size i
  rw [foldl_finishChunk, hsizes, Chunk.sum_sizes, List.length_map, List.length_range, zero,
    Nat.zero_add, Nat.zero_add]

theorem runChunks_finished (hsize : 0 < size) (ht : t.Counts .zero)
    (hworks : ∀ i < Chunk.number d.rowCount size, ∃ p, work (d.chunk size i) = .ok p) :
    ∃ outs t', runChunks work d.rows (Chunk.ranges d.rowCount size) t = ⟨.ok outs, t'⟩ ∧
      t'.events = t.events ++ work.finishedEvents d size (Chunk.number d.rowCount size) ∧
      t'.Counts ⟨Chunk.number d.rowCount size, Chunk.number d.rowCount size, 0, 0, d.rowCount⟩ := by
  obtain ⟨outs, t', hrun, hevents, hcounts⟩ := runChunks_finish (works_iff.2 hworks) ht
  rw [work.flatMap_events] at hevents
  rw [Tally.foldl_ofNumber, Nat.min_eq_right (Chunk.le_number_mul hsize)] at hcounts
  exact ⟨outs, t', hrun, hevents, hcounts⟩

theorem runChunks_failed {k : Nat} {e : Error} (hsize : 0 < size) (ht : t.Counts .zero)
    (hk : k < Chunk.number d.rowCount size) (hworks : ∀ i < k, ∃ p, work (d.chunk size i) = .ok p)
    (herror : work (d.chunk size k) = .error e) :
    ∃ t', runChunks work d.rows (Chunk.ranges d.rowCount size) t = ⟨.error e, t'⟩ ∧
      t'.events = t.events ++ work.finishedEvents d size k ++
        [.chunkStarted (k * size) (min size (d.rowCount - k * size)),
          .chunkFailed (k * size) e.message] ∧
      t'.Counts ⟨k + 1, k, 1, 0, k * size⟩ := by
  obtain ⟨more, hmore⟩ := Nat.exists_eq_add_of_lt hk
  have hranges : Chunk.ranges d.rowCount size =
      (List.range k).map (Chunk.ofNumber d.rowCount size) ++ Chunk.ofNumber d.rowCount size k ::
        (List.range' (k + 1) more).map (Chunk.ofNumber d.rowCount size) := by
    have hrange : List.range (k + more + 1) = List.range k ++ k :: List.range' (k + 1) more := by
      have happend := List.range'_append_1 (s := 0) (m := k) (n := more + 1)
      rw [Nat.zero_add, List.range'_succ, ← List.range_eq_range', ← List.range_eq_range'] at happend
      exact happend.symm
    rw [Chunk.ranges_eq, hmore, hrange, List.map_append, List.map_cons]
  have hrows := d.ofNumber_rows size k
  rw [← hrows] at herror
  obtain ⟨t', hrun, hevents, hcounts⟩ := runChunks_fail (works_iff.2 hworks) herror
    ((List.range' (k + 1) more).map (Chunk.ofNumber d.rowCount size)) ht
  rw [← hranges] at hrun
  rw [work.flatMap_events, Chunk.ofNumber_size] at hevents
  have hle := Nat.le_of_lt ((Chunk.lt_number hsize).1 hk)
  rw [Tally.foldl_ofNumber, Nat.min_eq_left hle] at hcounts
  exact ⟨t', hrun, hevents, hcounts⟩

/-- The last step of a run succeeds on the outputs of all chunks, and merges some parts. -/
def Combines {β : Type} (work : ChunkWork α) (combine : List α → Trace → Outcome β) (d : Dataset)
    (size merges : Nat) : Prop :=
  ∀ outs t n, (Chunk.ranges d.rowCount size).mapM (chunkResult work d) = .ok outs → t.Counts n →
    ∃ out t', combine outs t = ⟨.ok out, t'⟩ ∧
      t'.events = t.events ++ (List.range merges).map .partitionMerged ∧ t'.Counts (n.merge merges)

end Run

namespace Engine

variable {α β : Type} {work : ChunkWork α} {combine : List α → Trace → Outcome β} {d : Dataset}
  {merges : Nat} (e : Engine) (operation : String) (elapsed : Nat)

theorem run_finished (hsize : 0 < e.options.chunkSize) (few : d.rowCount < 2 ^ 64)
    (hcombine : Combines work combine d e.options.chunkSize merges)
    (hmerges : merges ≤ Chunk.number d.rowCount e.options.chunkSize)
    (hworks : ∀ i < Chunk.number d.rowCount e.options.chunkSize,
      ∃ p, work (d.chunk e.options.chunkSize i) = .ok p) :
    (e.run operation d work combine elapsed).trace.Tallied d.rowCount e.options.chunkSize ∧
      (e.run operation d work combine elapsed).Finished operation work d e.options.chunkSize merges
        elapsed := by
  have hstart := Trace.counts_start e.metrics operation d.rowCount
  obtain ⟨outs, t, hrun, hevents, hcounts⟩ := runChunks_finished hsize hstart hworks
  have houts := runChunks_result work d (Chunk.ranges d.rowCount e.options.chunkSize)
    (Trace.start e.metrics operation d.rowCount)
  rw [hrun] at houts
  obtain ⟨out, t', hfinal, hmerged, hcounts'⟩ := hcombine outs t _ houts.symm hcounts
  have hwhole : e.run operation d work combine elapsed = ⟨.ok out, t'.finish elapsed none⟩ := by
    rw [Engine.run]
    simp only [hrun, hfinal]
    rfl
  rw [Tally.merge, Nat.zero_add] at hcounts'
  have hfinished := hcounts'.finish elapsed none
  have hall : (t'.finish elapsed none).events = .runStarted operation d.rowCount ::
      (work.finishedEvents d e.options.chunkSize (Chunk.number d.rowCount e.options.chunkSize) ++
        (List.range merges).map .partitionMerged ++
        [.runFinished elapsed (t'.finish elapsed none).metrics]) := by
    rw [← List.cons_append, ← List.cons_append]
    change t'.events ++ _ = _
    rw [hmerged, hevents]
    rfl
  rw [hwhole]
  refine ⟨hfinished.tallied_finished hsize few hmerges hall, ⟨out, rfl⟩, hworks, hall, ?_⟩
  rw [hfinished.rows]
  exact UInt64.toNat_ofNat_of_lt' few

theorem run_failed (hsize : 0 < e.options.chunkSize) (few : d.rowCount < 2 ^ 64) {k : Nat}
    {err : Error} (hk : k < Chunk.number d.rowCount e.options.chunkSize)
    (hworks : ∀ i < k, ∃ p, work (d.chunk e.options.chunkSize i) = .ok p)
    (herror : work (d.chunk e.options.chunkSize k) = .error err) :
    (e.run operation d work combine elapsed).trace.Tallied d.rowCount e.options.chunkSize ∧
      (e.run operation d work combine elapsed).Failed operation work d e.options.chunkSize elapsed
        k err := by
  have hstart := Trace.counts_start e.metrics operation d.rowCount
  obtain ⟨t, hrun, hevents, hcounts⟩ := runChunks_failed hsize hstart hk hworks herror
  have hwhole : e.run operation d work combine elapsed = ⟨.error err, t.finish elapsed err⟩ := by
    rw [Engine.run]
    simp only [hrun]
    rfl
  have hfinished := hcounts.finish elapsed err
  have hall : (t.finish elapsed err).events = .runStarted operation d.rowCount ::
      (work.finishedEvents d e.options.chunkSize k ++
        [.chunkStarted (k * e.options.chunkSize)
            (min e.options.chunkSize (d.rowCount - k * e.options.chunkSize)),
          .chunkFailed (k * e.options.chunkSize) err.message, .runFailed elapsed err.message]) := by
    change t.events ++ _ = _
    rw [hevents, List.append_assoc, List.append_assoc]
    rfl
  have hlt := (Chunk.lt_number hsize).1 hk
  rw [hwhole]
  refine ⟨hfinished.tallied_failed hsize few hk hall, rfl, hlt, hworks, herror, hall, ?_⟩
  rw [hfinished.rows]
  exact UInt64.toNat_ofNat_of_lt' (Nat.lt_trans hlt few)

theorem run_recorded (hsize : 0 < e.options.chunkSize) (few : d.rowCount < 2 ^ 64)
    (hcombine : Combines work combine d e.options.chunkSize merges)
    (hmerges : merges ≤ Chunk.number d.rowCount e.options.chunkSize) :
    (e.run operation d work combine elapsed).Recorded operation work d e.options.chunkSize merges
      elapsed := by
  rcases forall_ok_or_first_error (fun i => work (d.chunk e.options.chunkSize i))
    (Chunk.number d.rowCount e.options.chunkSize) with hworks | ⟨k, err, hk, hworks, herror⟩
  · obtain ⟨htallied, hfinished⟩ :=
      e.run_finished operation elapsed hsize few hcombine hmerges hworks
    exact ⟨htallied, .inl hfinished⟩
  · obtain ⟨htallied, hfailed⟩ := e.run_failed operation elapsed hsize few hk hworks herror
    exact ⟨htallied, .inr ⟨k, err, hfailed⟩⟩

theorem combines_concat {work : ChunkWork (List Row)} (d : Dataset) (size : Nat) :
    Combines work (concat d) d size 0 := by
  intro outs t n _ hn
  exact ⟨_, t, rfl, (List.append_nil _).symm, hn⟩

theorem combines_reportAll {size : Nat} (hsize : 0 < size) (few : d.rowCount < 2 ^ 64) :
    Combines (analyzeChunk d.schema) (reportAll d.schema) d size
      (Chunk.number d.rowCount size) := by
  intro outs t n houts hn
  rw [mapM_chunkResult] at houts
  simp only [analyzeChunk_fst] at houts
  have hchunks := Analysis.mapM_foldRows d.schema (d.parts size) (by rwa [d.flatten_parts hsize])
  obtain ⟨_, houts', hall⟩ := hchunks.exists_of_ok (hchunks.check_eq_ok houts)
  cases houts.symm.trans houts'
  obtain ⟨total, htotal, hsum⟩ := mergeAll_parts hsize few hall t
  have hsome : ∀ a ∈ outs, a ≠ none := by
    rintro a ha rfl
    obtain ⟨rows, hrows, hpart⟩ := exists_of_forall₂ hall.flip ha
    have hzero : (rows : Multiset Row) = 0 := hpart
    exact d.parts_ne_nil hsize rows hrows ((Multiset.coe_eq_zero rows).1 hzero)
  obtain ⟨hevents, hcounts⟩ := mergeAll_trace hsome htotal hn
  have hlength : outs.length = Chunk.number d.rowCount size := by
    rw [← hall.length_eq, Dataset.parts, List.length_map, Chunk.ranges_eq, List.length_map,
      List.length_range]
  obtain ⟨report, hreport⟩ := hsum.getD.report_eq_ok
  rw [hlength, ← List.range_eq_range'] at hevents
  rw [hlength] at hcounts
  refine ⟨report, _, ?_, hevents, hcounts⟩
  rw [reportAll]
  generalize mergeAll 0 none outs t = merged at htotal
  obtain ⟨result, t'⟩ := merged
  cases htotal
  simp only
  rw [hreport]

/-- What an operation that works chunk by chunk records: the chunks up to the first that fails, then
the merges and the end, and their numbers. -/
theorem operations_recorded (e : Engine) (hsize : 0 < e.options.chunkSize) (d : Dataset)
    (few : d.rowCount < 2 ^ 64) (elapsed : Nat) :
    (∀ f, (e.filterRows d f elapsed).Recorded "filter" (keepRows f) d e.options.chunkSize 0
      elapsed) ∧
    (∀ f, (e.mapRows d f elapsed).Recorded "map" (changeRows d.schema f) d e.options.chunkSize 0
      elapsed) ∧
    (∀ c b, c.bind d.schema = .ok b → (e.filterWhere d c elapsed).Recorded "filter_condition"
      (keepWhere b) d e.options.chunkSize 0 elapsed) ∧
    (∀ c err, c.bind d.schema = .error err →
      e.filterWhere d c elapsed = ⟨.error err, ⟨e.metrics, []⟩⟩) ∧
    (e.analyze d elapsed).Recorded "analyze" (analyzeChunk d.schema) d e.options.chunkSize
      (Chunk.number d.rowCount e.options.chunkSize) elapsed := by
  refine ⟨?_, ?_, ?_, ?_, ?_⟩
  · intro f
    exact e.run_recorded "filter" elapsed hsize few (combines_concat d _) (Nat.zero_le _)
  · intro f
    exact e.run_recorded "map" elapsed hsize few (combines_concat d _) (Nat.zero_le _)
  · intro c b hb
    rw [filterWhere, hb]
    exact e.run_recorded "filter_condition" elapsed hsize few (combines_concat d _) (Nat.zero_le _)
  · intro c err herror
    rw [filterWhere, herror]
  · exact e.run_recorded "analyze" elapsed hsize few (combines_reportAll hsize few) (Nat.le_refl _)

theorem operations_recorded_of_three :
    let e : Engine := ⟨⟨some 1, 2, 1⟩, .empty⟩
    let schema : Schema := ⟨[⟨"id", .integer⟩], by decide, by decide⟩
    let d : Dataset := ⟨schema, [[.integer 4], [.null .integer], [.boolean true]]⟩
    let err : Error := .typeMismatch (.forColumn .integer "id") (.value (.boolean true))
    let o := e.mapRows d id 0
    o.Recorded "map" (changeRows schema id) d 2 0 0 ∧
      (e.analyze d 0).Recorded "analyze" (analyzeChunk schema) d 2 2 0 ∧
      o.trace.events = [.runStarted "map" 3, .chunkStarted 0 2, .chunkFinished 0 2,
        .chunkStarted 2 1, .chunkFailed 2 err.message, .runFailed 0 err.message] ∧
      o.trace.metrics.chunksStarted.toNat = 2 ∧ o.trace.metrics.chunksFailed.toNat = 1 ∧
      o.trace.metrics.rowsProcessed.toNat = 2 := by
  intro e schema d err o
  obtain ⟨-, hmap, -, -, hanalyze⟩ := operations_recorded e (by decide) d (by decide) 0
  obtain ⟨htallied, -⟩ := hmap id
  have hnumber : Chunk.number d.rowCount e.options.chunkSize = 2 := by decide
  rw [hnumber] at hanalyze
  have hevents : o.trace.events = [.runStarted "map" 3, .chunkStarted 0 2, .chunkFinished 0 2,
      .chunkStarted 2 1, .chunkFailed 2 err.message, .runFailed 0 err.message] := by
    decide +kernel
  have hstarted := htallied.started
  have hfailed := htallied.failed
  have hrows := htallied.rows
  rw [hevents] at hstarted hfailed hrows
  exact ⟨hmap id, hanalyze, hevents, hstarted, hfailed, hrows⟩

end Engine

end Tabular
