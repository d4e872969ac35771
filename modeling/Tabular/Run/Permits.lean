import Tabular.Run.Metrics

namespace Tabular

/-- How far the task of a chunk has come; `ok` is the outcome of its work. -/
inductive TaskPhase where
  | waiting
  | admitted
  | started
  /-- Active, with the number of active chunks that it saw. -/
  | entered (seen : UInt64)
  | working
  | worked (ok : Bool)
  | ended (ok : Bool)
  | left (ok : Bool)
  | done (ok : Bool)
deriving DecidableEq

namespace TaskPhase

def holdsPermit : TaskPhase → Bool
  | waiting | done _ => false
  | _ => true

def isDone : TaskPhase → Bool
  | done _ => true
  | _ => false

end TaskPhase

/-- The free permits and the counters that tasks share, and the phase of every task. -/
structure TaskPool where
  permits : Nat
  metrics : Metrics
  phases : List TaskPhase
deriving DecidableEq

namespace TaskPool

def start (permits : Nat) (m : Metrics) (tasks : Nat) : TaskPool :=
  ⟨permits, m.beginRun, List.replicate tasks .waiting⟩

def holders (p : TaskPool) : Nat := p.phases.countP TaskPhase.holdsPermit

/-- The step of a task in a given phase, `ok` being the outcome if it works; a task waits while no
permit is free. -/
def step? (p : TaskPool) (ok : Bool) : TaskPhase → Option (TaskPool × TaskPhase)
  | .waiting =>
    if p.permits = 0 then none else some ({ p with permits := p.permits - 1 }, .admitted)
  | .admitted => some ({ p with metrics := p.metrics.started }, .started)
  | .started =>
    let m := p.metrics.entered
    some ({ p with metrics := m }, .entered m.activeChunks)
  | .entered seen => some ({ p with metrics := p.metrics.raised seen }, .working)
  | .working => some (p, .worked ok)
  | .worked ok => some ({ p with metrics := p.metrics.ended ok }, .ended ok)
  | .ended ok => some ({ p with metrics := p.metrics.left }, .left ok)
  | .left ok => some ({ p with permits := p.permits + 1 }, .done ok)
  | .done _ => none

def advance? (p : TaskPool) (i : Nat) (ok : Bool) : Option TaskPool := do
  let (q, next) ← p.step? ok (← p.phases[i]?)
  return { q with phases := p.phases.set i next }

/-- The states that some order of steps leads to. -/
inductive Reachable (p : TaskPool) : TaskPool → Prop where
  | refl : Reachable p p
  | step {q r : TaskPool} (i : Nat) (ok : Bool) :
    Reachable p q → q.advance? i ok = some r → Reachable p r

end TaskPool

end Tabular
