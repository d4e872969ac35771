import Tabular.Proofs.Run.Chunk
import Tabular.Run.Engine

namespace Tabular

/-- A pool of workers: all outputs come back in the order of the chunks, unless some chunk has
failed. -/
structure Pool where
  collect : {α : Type} → List (Except Error α) → Except Error (List α)
  collect_eq_ok : ∀ {α : Type} (results : List (Except Error α)) (outs : List α),
    collect results = .ok outs ↔ results = outs.map .ok

/-- The results of the chunks of a dataset, with their outputs alone. -/
def chunkResult {α : Type} (work : ChunkWork α) (d : Dataset) (c : Chunk) : Except Error α :=
  (work (c.rows d.rows)).map Prod.fst

namespace Pool

variable (p : Pool) (e : Engine) (d : Dataset) (t : Trace)

/-- The result of a run whose chunks are worked on by a pool; `t` is the trace it leaves before the
outputs are put together. -/
def run {α β : Type} (work : ChunkWork α) (combine : List α → Trace → Outcome β) :
    Except Error β := do
  let outs ← p.collect ((Chunk.ranges d.rowCount e.options.chunkSize).map (chunkResult work d))
  (combine outs t).result

def filterRows (f : Row → Bool) : Except Error Dataset :=
  p.run e d t (Engine.keepRows f) (Engine.concat d)

def filterWhere (c : Condition) : Except Error Dataset := do
  let b ← c.bind d.schema
  p.run e d t (Engine.keepWhere b) (Engine.concat d)

def mapRows (f : Row → Row) : Except Error Dataset :=
  p.run e d t (Engine.changeRows d.schema f) (Engine.concat d)

def analyze : Except Error Report :=
  p.run e d t (Engine.analyzeChunk d.schema) (Engine.reportAll d.schema)

end Pool

variable {α β : Type}

theorem runChunks_result (work : ChunkWork α) (d : Dataset) (chunks : List Chunk) (t : Trace) :
    (runChunks work d.rows chunks t).result = chunks.mapM (chunkResult work d) := by
  induction chunks generalizing t with
  | nil => rfl
  | cons c chunks ih =>
    rw [runChunks, List.mapM_cons]
    have hchunk : (runChunk work d.rows c t).result = chunkResult work d c := by
      rw [runChunk, chunkResult]
      cases work (c.rows d.rows) <;> rfl
    rw [← hchunk]
    obtain ⟨result, t'⟩ := runChunk work d.rows c t
    cases result with
    | error err => rfl
    | ok out =>
      simp only
      rw [← ih t']
      obtain ⟨rest, t''⟩ := runChunks work d.rows chunks t'
      cases rest <;> rfl

section Run

variable {work : ChunkWork α} {combine : List α → Trace → Outcome β}
  {final : List α → Except Error β} (e : Engine) (d : Dataset)

theorem Engine.run_result (hfinal : ∀ outs t, (combine outs t).result = final outs)
    (operation : String) (elapsed : Nat) :
    (e.run operation d work combine elapsed).result =
      (Chunk.ranges d.rowCount e.options.chunkSize).mapM (chunkResult work d) >>= final := by
  rw [Engine.run, ← runChunks_result work d _ (Trace.start e.metrics operation d.rowCount)]
  simp only
  generalize runChunks work d.rows _ _ = out
  obtain ⟨result, t⟩ := out
  cases result with
  | error err => rfl
  | ok outs => exact hfinal outs t

theorem mapM_eq_ok_iff_map {f : α → Except Error β} {xs : List α} {ys : List β} :
    xs.mapM f = .ok ys ↔ xs.map f = ys.map .ok := by
  rw [mapM_eq_ok, ← List.forall₂_eq_eq_eq, List.forall₂_map_left_iff, List.forall₂_map_right_iff]

theorem Pool.run_eq_ok (p : Pool) (t : Trace)
    (hfinal : ∀ outs t, (combine outs t).result = final outs) (operation : String) (elapsed : Nat)
    (out : β) : p.run e d t work combine = .ok out ↔
      (e.run operation d work combine elapsed).result = .ok out := by
  rw [Engine.run_result e d hfinal, Pool.run, bind_eq_ok, bind_eq_ok]
  apply exists_congr
  intro outs
  rw [p.collect_eq_ok, ← mapM_eq_ok_iff_map, hfinal]

end Run

def Dataset.parts (d : Dataset) (size : Nat) : List (List Row) :=
  (Chunk.ranges d.rowCount size).map fun c => c.rows d.rows

theorem Dataset.flatten_parts (d : Dataset) {size : Nat} (hsize : 0 < size) :
    (d.parts size).flatten = d.rows :=
  Chunk.flatten_ranges d.rows hsize

theorem mapM_chunkResult (work : ChunkWork α) (d : Dataset) (size : Nat) :
    (Chunk.ranges d.rowCount size).mapM (chunkResult work d) =
      (d.parts size).mapM fun rows => (work rows).map Prod.fst := by
  rw [Dataset.parts, List.mapM_map]
  rfl

theorem counted_fst (x : Except Error (List Row)) : (x.map Engine.counted).map Prod.fst = x := by
  cases x <;> rfl

/-- Additive work on the chunks of a dataset, put together, is the work on all its rows. -/
theorem Additive.run_result {f : List Row → Except Error (List Row)} (h : Additive f)
    (e : Engine) (he : 0 < e.options.chunkSize) (d : Dataset) (operation : String)
    (elapsed : Nat) :
    (e.run operation d (fun rows => (f rows).map Engine.counted) (Engine.concat d) elapsed).result =
      (f d.rows).map fun rows => { d with rows := rows } := by
  have hfinal : ∀ outs t, (Engine.concat d outs t).result =
      .ok { d with rows := outs.flatten } := fun _ _ => rfl
  rw [Engine.run_result e d hfinal, mapM_chunkResult]
  simp only [counted_fst]
  rw [← d.flatten_parts he, h.flatten]
  cases (d.parts e.options.chunkSize).mapM f <;> rfl

namespace Engine

variable (e : Engine) (he : 0 < e.options.chunkSize) (d : Dataset) (elapsed : Nat)

include he

theorem filterRows_result (f : Row → Bool) :
    (e.filterRows d f elapsed).result = .ok (d.filterRows f) :=
  (additive_filter f).run_result e he d "filter" elapsed

theorem filterWhere_result (c : Condition) :
    (e.filterWhere d c elapsed).result = d.filterWhere c := by
  rw [filterWhere, Dataset.filterWhere, Dataset.retain]
  cases c.bind d.schema with
  | error err => rfl
  | ok b =>
    have hrun := (additive_select b true).run_result e he d "filter_condition" elapsed
    refine hrun.trans ?_
    change _ = b.select true d.rows >>= fun rows => .ok { d with rows := rows }
    cases b.select true d.rows <;> rfl

theorem mapRows_result (f : Row → Row) : (e.mapRows d f elapsed).result = d.mapRows f := by
  have hrun := (additive_mapM (d.schema.mapRow f)).run_result e he d "map" elapsed
  refine hrun.trans ?_
  rw [Dataset.mapRows]
  cases d.rows.mapM (d.schema.mapRow f) <;> rfl

end Engine

end Tabular
