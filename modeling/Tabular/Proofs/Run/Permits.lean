import Mathlib.Data.List.Induction
import Tabular.Run.Permits

namespace Tabular

namespace TaskPhase

/-- Counted among the active tasks. -/
def isActive : TaskPhase → Bool
  | entered _ | working | worked _ | ended _ => true
  | _ => false

/-- Counted among the started chunks. -/
def hasStarted : TaskPhase → Bool
  | waiting | admitted => false
  | _ => true

/-- Counted among the chunks that ended with an outcome. -/
def hasEnded (outcome : Bool) : TaskPhase → Bool
  | ended ok | left ok | done ok => ok == outcome
  | _ => false

variable {t : TaskPhase}

/-- A task gives its permit back only after it has left the active ones. -/
theorem holdsPermit_of_isActive (h : t.isActive = true) : t.holdsPermit = true := by
  cases t with
  | entered | working | worked | ended => rfl
  | waiting | admitted | started | left | done => cases h

theorem isDone_iff : t.isDone = true ↔ ∃ ok, t = .done ok := by
  cases t with
  | done ok => exact ⟨fun _ => ⟨ok, rfl⟩, fun _ => rfl⟩
  | _ => exact ⟨nofun, nofun⟩

end TaskPhase

theorem countP_set_add {α : Type} {xs : List α} {i : Nat} {a : α} (h : xs[i]? = some a) (b : α)
    (f : α → Bool) : (xs.set i b).countP f + (f a).toNat = xs.countP f + (f b).toNat := by
  induction xs generalizing i with
  | nil => cases h
  | cons x xs ih =>
    cases i with
    | zero =>
      cases h
      rw [List.set_cons_zero, List.countP_cons, List.countP_cons]
      cases f a <;> cases f b <;> rfl
    | succ i =>
      have hrest := ih h
      rw [List.set_cons_succ, List.countP_cons, List.countP_cons]
      omega

namespace TaskPool

open TaskPhase

variable {p q r : TaskPool} {i permits tasks : Nat} {ok : Bool} {phase next : TaskPhase}

/-- What a task in some phase does to the shared state, and the phase that it comes to. -/
inductive Step (p : TaskPool) (ok : Bool) : TaskPhase → TaskPool → TaskPhase → Prop where
  | acquire (free : p.permits ≠ 0) :
    Step p ok .waiting { p with permits := p.permits - 1 } .admitted
  | start : Step p ok .admitted { p with metrics := p.metrics.started } .started
  | enter : Step p ok .started { p with metrics := p.metrics.entered }
      (.entered p.metrics.entered.activeChunks)
  | raise (seen : UInt64) :
    Step p ok (.entered seen) { p with metrics := p.metrics.raised seen } .working
  | work : Step p ok .working p (.worked ok)
  | finish (outcome : Bool) :
    Step p ok (.worked outcome) { p with metrics := p.metrics.ended outcome } (.ended outcome)
  | leave (outcome : Bool) :
    Step p ok (.ended outcome) { p with metrics := p.metrics.left } (.left outcome)
  | release (outcome : Bool) :
    Step p ok (.left outcome) { p with permits := p.permits + 1 } (.done outcome)

theorem step?_eq_some : p.step? ok phase = some (q, next) ↔ p.Step ok phase q next := by
  constructor
  · intro h
    cases phase with
    | waiting =>
      rw [step?] at h
      split at h
      · cases h
      · next free =>
        cases h
        exact .acquire free
    | admitted => cases h; exact .start
    | started => cases h; exact .enter
    | entered seen => cases h; exact .raise seen
    | working => cases h; exact .work
    | worked outcome => cases h; exact .finish outcome
    | ended outcome => cases h; exact .leave outcome
    | left outcome => cases h; exact .release outcome
    | done => cases h
  · intro h
    cases h with
    | acquire free => exact if_neg free
    | _ => rfl

theorem advance?_eq_some : p.advance? i ok = some r ↔
    ∃ phase q next, p.phases[i]? = some phase ∧ p.Step ok phase q next ∧
      { q with phases := p.phases.set i next } = r := by
  simp only [← step?_eq_some]
  constructor
  · intro h
    obtain ⟨phase, hphase, h⟩ := Option.bind_eq_some_iff.1 h
    obtain ⟨⟨q, next⟩, hstep, h⟩ := Option.bind_eq_some_iff.1 h
    exact ⟨phase, q, next, hphase, hstep, Option.some.inj h⟩
  · rintro ⟨phase, q, next, hphase, hstep, rfl⟩
    refine Option.bind_eq_some_iff.2 ⟨phase, hphase, ?_⟩
    exact Option.bind_eq_some_iff.2 ⟨(q, next), hstep, rfl⟩

/-- A counter of the tasks in certain phases: every step changes the one as it changes the other. -/
def Tracks (counter : Metrics → UInt64) (counted : TaskPhase → Bool) : Prop :=
  ∀ {p q : TaskPool} {ok : Bool} {phase next : TaskPhase}, p.Step ok phase q next →
    counter q.metrics + .ofNat (counted phase).toNat =
      counter p.metrics + .ofNat (counted next).toNat

theorem tracks_active : Tracks Metrics.activeChunks isActive := by
  intro p q ok phase next h
  cases h with
  | enter => exact UInt64.add_zero _
  | leave => exact (UInt64.sub_add_cancel _ _).trans (UInt64.add_zero _).symm
  | finish outcome => cases outcome <;> rfl
  | _ => rfl

theorem tracks_started : Tracks Metrics.chunksStarted hasStarted := by
  intro p q ok phase next h
  cases h with
  | start => exact UInt64.add_zero _
  | finish outcome => cases outcome <;> rfl
  | _ => rfl

theorem tracks_finished : Tracks Metrics.chunksFinished (hasEnded true) := by
  intro p q ok phase next h
  cases h with
  | finish outcome =>
    cases outcome with
    | true => exact UInt64.add_zero _
    | false => rfl
  | _ => rfl

theorem tracks_failed : Tracks Metrics.chunksFailed (hasEnded false) := by
  intro p q ok phase next h
  cases h with
  | finish outcome =>
    cases outcome with
    | true => rfl
    | false => exact UInt64.add_zero _
  | _ => rfl

/-- How many tasks are in certain phases. -/
def count (p : TaskPool) (counted : TaskPhase → Bool) : Nat := p.phases.countP counted

/-- The permits and the counters are those that the phases of a number of tasks make up. -/
structure Accounted (permits tasks : Nat) (p : TaskPool) : Prop where
  length : p.phases.length = tasks
  free : p.permits + p.holders = permits
  active : p.metrics.activeChunks = .ofNat (p.count isActive)
  started : p.metrics.chunksStarted = .ofNat (p.count hasStarted)
  finished : p.metrics.chunksFinished = .ofNat (p.count (hasEnded true))
  failed : p.metrics.chunksFailed = .ofNat (p.count (hasEnded false))

theorem accounted_start (permits : Nat) (m : Metrics) (tasks : Nat) :
    (start permits m tasks).Accounted permits tasks := by
  have hcount (counted : TaskPhase → Bool) (h : counted .waiting = false) :
      (start permits m tasks).count counted = 0 := by
    rw [count, start, List.countP_replicate, h]
    rfl
  constructor
  · exact List.length_replicate
  · exact congrArg (permits + ·) (hcount holdsPermit rfl)
  · rw [hcount isActive rfl]
    rfl
  · rw [hcount hasStarted rfl]
    rfl
  · rw [hcount (hasEnded true) rfl]
    rfl
  · rw [hcount (hasEnded false) rfl]
    rfl

theorem count_isActive_le_holders (p : TaskPool) : p.count isActive ≤ p.holders :=
  List.countP_mono_left fun _ _ h => holdsPermit_of_isActive h

theorem Tracks.advance {counter : Metrics → UInt64} {counted : TaskPhase → Bool}
    (h : Tracks counter counted) (hphase : p.phases[i]? = some phase)
    (hstep : p.Step ok phase q next) (hp : counter p.metrics = .ofNat (p.count counted)) :
    counter q.metrics = .ofNat ((p.phases.set i next).countP counted) := by
  have hcount := congrArg UInt64.ofNat (countP_set_add hphase next counted)
  rw [UInt64.ofNat_add, UInt64.ofNat_add] at hcount
  have hcounter := h hstep
  rw [hp] at hcounter
  exact (UInt64.add_left_inj _).1 (hcounter.trans hcount.symm)

namespace Step

theorem permits_add (h : p.Step ok phase q next) :
    q.permits + next.holdsPermit.toNat = p.permits + phase.holdsPermit.toNat := by
  cases h with
  | acquire free => exact Nat.sub_add_cancel (Nat.one_le_iff_ne_zero.2 free)
  | _ => rfl

theorem seen_eq (h : p.Step ok phase q next) {n : UInt64} (hn : next = .entered n) :
    n = q.metrics.activeChunks := by
  cases h with
  | enter => exact (TaskPhase.entered.inj hn).symm
  | _ => cases hn

theorem most_cases (h : p.Step ok phase q next) :
    q.metrics.maxActiveChunks = p.metrics.maxActiveChunks ∨
      ∃ n, phase = .entered n ∧ q.metrics.maxActiveChunks = max p.metrics.maxActiveChunks n := by
  cases h with
  | raise n => exact .inr ⟨n, rfl, rfl⟩
  | finish outcome => cases outcome <;> exact .inl rfl
  | _ => exact .inl rfl

end Step

namespace Accounted

theorem holders_le (h : p.Accounted permits tasks) : p.holders ≤ permits :=
  h.free ▸ Nat.le_add_left _ _

theorem active_le (h : p.Accounted permits tasks) :
    p.metrics.activeChunks.toNat ≤ p.holders := by
  rw [h.active, UInt64.toNat_ofNat']
  exact Nat.le_trans (Nat.mod_le _ _) p.count_isActive_le_holders

/-- The counter of the active chunks has not wrapped around, as each of them has a permit. -/
theorem active_toNat (h : p.Accounted permits tasks) (hword : permits < UInt64.size) :
    p.metrics.activeChunks.toNat = p.count isActive := by
  have hle := Nat.le_trans p.count_isActive_le_holders h.holders_le
  rw [h.active, UInt64.toNat_ofNat_of_lt' (Nat.lt_of_le_of_lt hle hword)]

theorem advance (h : p.Accounted permits tasks) (hr : p.advance? i ok = some r) :
    r.Accounted permits tasks := by
  obtain ⟨phase, q, next, hphase, hstep, rfl⟩ := advance?_eq_some.1 hr
  have hfree : q.permits + (p.phases.set i next).countP holdsPermit = permits := by
    have hbefore : p.permits + p.phases.countP holdsPermit = permits := h.free
    have hpermits := hstep.permits_add
    have hholders := countP_set_add hphase next holdsPermit
    omega
  have hactive := tracks_active.advance hphase hstep h.active
  have hstarted := tracks_started.advance hphase hstep h.started
  have hfinished := tracks_finished.advance hphase hstep h.finished
  have hfailed := tracks_failed.advance hphase hstep h.failed
  exact ⟨List.length_set.trans h.length, hfree, hactive, hstarted, hfinished, hfailed⟩

end Accounted

/-- No task has seen more active chunks than there are permits. -/
structure Within (permits : Nat) (p : TaskPool) : Prop where
  seen : ∀ n, .entered n ∈ p.phases → n.toNat ≤ permits
  most : p.metrics.maxActiveChunks.toNat ≤ permits

theorem within_start (permits : Nat) (m : Metrics) (tasks : Nat) :
    (start permits m tasks).Within permits where
  seen n hn := by cases List.eq_of_mem_replicate hn
  most := Nat.zero_le permits

theorem Within.advance (h : p.Within permits) (hr : p.advance? i ok = some r)
    (haccounted : r.Accounted permits tasks) : r.Within permits := by
  have hactive := Nat.le_trans haccounted.active_le haccounted.holders_le
  obtain ⟨phase, q, next, hphase, hstep, rfl⟩ := advance?_eq_some.1 hr
  constructor
  · intro n hn
    rcases List.mem_or_eq_of_mem_set hn with hn | hn
    · exact h.seen n hn
    · exact hstep.seen_eq hn.symm ▸ hactive
  · rcases hstep.most_cases with hmost | ⟨n, rfl, hmost⟩
    · exact hmost ▸ h.most
    · change q.metrics.maxActiveChunks.toNat ≤ permits
      rw [hmost, UInt64.toNat_max]
      exact Nat.max_le.2 ⟨h.most, h.seen n (List.mem_of_getElem? hphase)⟩

namespace Reachable

variable {m : Metrics}

theorem accounted (h : (start permits m tasks).Reachable q) : q.Accounted permits tasks := by
  induction h with
  | refl => exact accounted_start permits m tasks
  | step i ok _ hstep ih => exact ih.advance hstep

theorem within (h : (start permits m tasks).Reachable q) : q.Within permits := by
  induction h with
  | refl => exact within_start permits m tasks
  | step i ok hq hstep ih => exact ih.advance hstep (hq.accounted.advance hstep)

end Reachable

theorem exists_step_of_holdsPermit (p : TaskPool) (ok : Bool) (h : phase.holdsPermit = true) :
    ∃ q next, p.Step ok phase q next := by
  cases phase with
  | waiting | done => cases h
  | admitted => exact ⟨_, _, .start⟩
  | started => exact ⟨_, _, .enter⟩
  | entered seen => exact ⟨_, _, .raise seen⟩
  | working => exact ⟨_, _, .work⟩
  | worked outcome => exact ⟨_, _, .finish outcome⟩
  | ended outcome => exact ⟨_, _, .leave outcome⟩
  | left outcome => exact ⟨_, _, .release outcome⟩

theorem exists_advance_of_step (hphase : phase ∈ p.phases)
    (h : ∃ q next, p.Step ok phase q next) : ∃ i r, p.advance? i ok = some r := by
  obtain ⟨i, hi⟩ := List.getElem?_of_mem hphase
  obtain ⟨q, next, hstep⟩ := h
  exact ⟨i, _, advance?_eq_some.2 ⟨phase, q, next, hi, hstep, rfl⟩⟩

/-- While a task is not done, some task can go on: one with a permit, or else one that waits. -/
theorem Accounted.exists_advance (h : p.Accounted permits tasks) (hpermits : 0 < permits)
    (hphase : phase ∈ p.phases) (hdone : phase.isDone = false) (ok : Bool) :
    ∃ i r, p.advance? i ok = some r := by
  by_cases hholders : ∃ t ∈ p.phases, t.holdsPermit = true
  · obtain ⟨t, ht, hholds⟩ := hholders
    exact exists_advance_of_step ht (p.exists_step_of_holdsPermit ok hholds)
  · -- Nobody holds a permit, so all of them are free and the task that is not done can take one.
    have hnone : p.holders = 0 := by
      rw [holders, List.countP_eq_zero]
      exact fun t ht hholds => hholders ⟨t, ht, hholds⟩
    have hfree : p.permits ≠ 0 := by
      have := h.free
      omega
    have hwaiting : phase = .waiting := by
      cases phase with
      | waiting => rfl
      | done => cases hdone
      | _ => exact absurd ⟨_, hphase, rfl⟩ hholders
    exact exists_advance_of_step (hwaiting ▸ hphase) ⟨_, _, .acquire hfree⟩

/-- What holds once all tasks are done: permits are free, no chunk is active, and each task is
counted, up to whole words. -/
structure Settled (permits tasks : Nat) (p : TaskPool) : Prop where
  free : p.permits = permits
  active : p.metrics.activeChunks = 0
  started : p.metrics.chunksStarted = .ofNat tasks
  finished : p.metrics.chunksFinished = .ofNat (p.phases.count (.done true))
  failed : p.metrics.chunksFailed = .ofNat (p.phases.count (.done false))
  total : p.phases.count (.done true) + p.phases.count (.done false) = tasks
  counted : tasks < UInt64.size → p.metrics.chunksStarted.toNat = tasks ∧
    p.metrics.chunksFinished.toNat + p.metrics.chunksFailed.toNat = tasks

theorem count_hasEnded_of_done (h : ∀ t ∈ p.phases, t.isDone = true) (outcome : Bool) :
    p.count (hasEnded outcome) = p.phases.count (.done outcome) := by
  apply List.countP_congr
  intro t ht
  obtain ⟨ok, rfl⟩ := isDone_iff.1 (h t ht)
  cases ok <;> cases outcome <;> decide

theorem count_done_add (h : ∀ t ∈ p.phases, t.isDone = true) :
    p.phases.count (.done true) + p.phases.count (.done false) = p.phases.length := by
  have hother : p.count (hasEnded false) = p.count fun t => decide ¬hasEnded true t = true := by
    apply List.countP_congr
    intro t ht
    obtain ⟨ok, rfl⟩ := isDone_iff.1 (h t ht)
    cases ok <;> decide
  rw [← count_hasEnded_of_done h, ← count_hasEnded_of_done h, hother]
  exact (List.length_eq_countP_add_countP (hasEnded true)).symm

theorem Accounted.settled (h : p.Accounted permits tasks)
    (hdone : ∀ t ∈ p.phases, t.isDone = true) : p.Settled permits tasks := by
  have hholders : p.holders = 0 := by
    rw [holders, List.countP_eq_zero]
    intro t ht
    obtain ⟨ok, rfl⟩ := isDone_iff.1 (hdone t ht)
    exact Bool.false_ne_true
  have hactive : p.count isActive = 0 :=
    Nat.eq_zero_of_le_zero (hholders ▸ p.count_isActive_le_holders)
  have hstarted : p.count hasStarted = tasks := by
    rw [← h.length, count, List.countP_eq_length]
    intro t ht
    obtain ⟨ok, rfl⟩ := isDone_iff.1 (hdone t ht)
    rfl
  have htotal := (count_done_add hdone).trans h.length
  have hfinished := h.finished.trans (congrArg _ (count_hasEnded_of_done hdone true))
  have hfailed := h.failed.trans (congrArg _ (count_hasEnded_of_done hdone false))
  refine ⟨?_, ?_, ?_, hfinished, hfailed, htotal, fun hword => ?_⟩
  · rw [← h.free, hholders, Nat.add_zero]
  · rw [h.active, hactive]
    rfl
  · rw [h.started, hstarted]
  · have hfinishedWord : p.phases.count (.done true) < UInt64.size := by omega
    have hfailedWord : p.phases.count (.done false) < UInt64.size := by omega
    rw [h.started, hstarted, hfinished, hfailed, UInt64.toNat_ofNat_of_lt' hword,
      UInt64.toNat_ofNat_of_lt' hfinishedWord, UInt64.toNat_ofNat_of_lt' hfailedWord]
    exact ⟨rfl, htotal⟩

/-- The state after some tasks have taken a step each, in order. -/
def run? (p : TaskPool) (steps : List (Nat × Bool)) : Option TaskPool :=
  steps.foldlM (fun p step => p.advance? step.1 step.2) p

theorem reachable_iff : p.Reachable q ↔ ∃ steps, p.run? steps = some q := by
  constructor
  · intro h
    induction h with
    | refl => exact ⟨[], rfl⟩
    | step i ok _ hstep ih =>
      obtain ⟨steps, hsteps⟩ := ih
      refine ⟨steps ++ [(i, ok)], ?_⟩
      rw [run?, List.foldlM_append]
      exact Option.bind_eq_some_iff.2 ⟨_, hsteps, Option.bind_eq_some_iff.2 ⟨_, hstep, rfl⟩⟩
  · rintro ⟨steps, hsteps⟩
    induction steps using List.reverseRecOn generalizing q with
    | nil =>
      cases hsteps
      exact .refl
    | append_singleton steps step ih =>
      rw [run?, List.foldlM_append] at hsteps
      obtain ⟨r, hr, hlast⟩ := Option.bind_eq_some_iff.1 hsteps
      obtain ⟨s, hs, hq⟩ := Option.bind_eq_some_iff.1 hlast
      cases hq
      exact .step step.1 step.2 (ih hr) hs

theorem Reachable.stepAlone {k : Nat} {m : Metrics} (ok : Bool) (hi : i < p.phases.length)
    (h : p.Reachable ⟨k, m, p.phases.set i phase⟩)
    (hstep : Step ⟨k, m, p.phases.set i phase⟩ ok phase q next) :
    p.Reachable ⟨q.permits, q.metrics, p.phases.set i next⟩ := by
  apply h.step i ok
  refine advance?_eq_some.2 ⟨phase, q, next, List.getElem?_set_self hi, hstep, ?_⟩
  rw [List.set_set]

/-- Without steps of other tasks in between, a task counts what the start and the end of its chunk
count. -/
theorem reachable_chunk (hwaiting : p.phases[i]? = some .waiting) (hfree : p.permits ≠ 0)
    (ok : Bool) : p.Reachable { p with
      metrics := p.metrics.chunkStart.chunkEnd ok
      phases := p.phases.set i (.done ok) } := by
  obtain ⟨hi, hget⟩ := List.getElem?_eq_some_iff.1 hwaiting
  have hset : p.phases.set i .waiting = p.phases := hget ▸ List.set_getElem_self hi
  have hwait : p.Reachable ⟨p.permits, p.metrics, p.phases.set i .waiting⟩ := hset.symm ▸ .refl
  have hadmitted := hwait.stepAlone ok hi (.acquire hfree)
  have hstarted := hadmitted.stepAlone ok hi .start
  have hentered := hstarted.stepAlone ok hi .enter
  have hworking := hentered.stepAlone ok hi (.raise _)
  have hworked := hworking.stepAlone ok hi .work
  have hended := hworked.stepAlone ok hi (.finish ok)
  have hleft := hended.stepAlone ok hi (.leave ok)
  have hdone := hleft.stepAlone ok hi (.release ok)
  have hpermits : p.permits - 1 + 1 = p.permits := Nat.sub_add_cancel (Nat.pos_of_ne_zero hfree)
  rw [← hpermits]
  exact hdone

/-- Whatever the order of the steps: permits are kept, no more chunks are active than tasks hold
permits, and some task can go on until all are done. -/
theorem reachable_within_permits (permits : UInt64) (hpermits : 0 < permits) (m : Metrics)
    (tasks : Nat) (q : TaskPool) (h : (start permits.toNat m tasks).Reachable q) :
    q.permits + q.holders = permits.toNat ∧
    q.metrics.activeChunks.toNat ≤ q.holders ∧
    q.holders ≤ permits.toNat ∧
    q.metrics.maxActiveChunks ≤ permits ∧
    (∀ (i : Nat) ok, q.phases[i]? = some (.ended ok) → 0 < q.metrics.activeChunks) ∧
    ((∃ t ∈ q.phases, t.isDone = false) → ∀ ok, ∃ i r, q.advance? i ok = some r) ∧
    ((∀ t ∈ q.phases, t.isDone = true) → q.Settled permits.toNat tasks) := by
  have haccounted := h.accounted
  refine ⟨haccounted.free, haccounted.active_le, haccounted.holders_le,
    UInt64.le_iff_toNat_le.2 h.within.most, ?_, ?_, haccounted.settled⟩
  · intro i ok hi
    rw [UInt64.lt_iff_toNat_lt, haccounted.active_toNat permits.toNat_lt]
    exact List.countP_pos_iff.2 ⟨_, List.mem_of_getElem? hi, rfl⟩
  · rintro ⟨t, ht, hdone⟩ ok
    exact haccounted.exists_advance (UInt64.lt_iff_toNat_lt.1 hpermits) ht hdone ok

theorem reachable_within_permits_of_three :
    ∃ q, (start (UInt64.toNat 2) .empty 3).Reachable q ∧
      q.phases = [.done true, .done false, .done true] ∧ q.metrics.maxActiveChunks = 2 ∧
      q.Settled (UInt64.toNat 2) 3 := by
  have hrun : ∃ q, (start 2 .empty 3).run? ([0, 1, 1, 0, 0, 1, 1, 0, 1, 1, 1, 1, 2, 2, 0, 2, 2,
      2, 2, 2, 0, 2, 0, 0].map fun i => (i, i != 1)) = some q ∧
      q.phases = [.done true, .done false, .done true] ∧ q.metrics.maxActiveChunks = 2 :=
    ⟨_, rfl, rfl, rfl⟩
  obtain ⟨q, hq, hphases, hmost⟩ := hrun
  have h : (start (UInt64.toNat 2) .empty 3).Reachable q := reachable_iff.2 ⟨_, hq⟩
  obtain ⟨-, -, -, -, -, -, hsettled⟩ := reachable_within_permits 2 (by decide) .empty 3 q h
  refine ⟨q, h, hphases, hmost, hsettled ?_⟩
  rw [hphases]
  decide

end TaskPool

end Tabular
