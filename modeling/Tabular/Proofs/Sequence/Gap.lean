import Tabular.Proofs.Schema
import Tabular.Proofs.Sequence.Pieces
import Tabular.Proofs.Value.Conversion
import Tabular.Sequence.Gap

namespace Tabular

/-- The time a value gives: that of a present integer or long. -/
def Value.time? : Value → Option Int64
  | .integer n => some n.toInt64
  | .long n => some n
  | _ => none

/-- The time of a step whose time column is at a position. -/
def Row.time? (step : Row) (position : Nat) : Option Int64 :=
  step[position]?.bind Value.time?

namespace GapSplit

variable {s : GapSplit} {schema : Schema} {position : Nat} {steps : List Row}
  {timed : List (Int64 × Row)}

section Times

/-- The time column stands at a position and holds integers or longs. -/
def TimesAt (s : GapSplit) (schema : Schema) (position : Nat) : Prop :=
  ∃ f, schema.fields[position]? = some f ∧ f.name = s.timeColumn ∧
    (f.type = .integer ∨ f.type = .long)

theorem timePosition_eq_ok :
    s.timePosition schema = .ok position ↔ s.TimesAt schema position := by
  rw [timePosition, bind_eq_ok]
  constructor
  · rintro ⟨⟨i, f⟩, hcolumn, h⟩
    by_cases htype : f.type = .integer ∨ f.type = .long
    · obtain rfl := Except.ok.inj ((if_pos htype).symm.trans h)
      exact ⟨f, (Schema.requireColumn_eq_ok.1 hcolumn).2, Schema.name_of_requireColumn hcolumn,
        htype⟩
    · cases (if_neg htype).symm.trans h
  · rintro ⟨f, hf, hname, htype⟩
    have hindex : schema.indexOf? s.timeColumn = some position := by
      rw [Schema.indexOf?_eq_some, Schema.names, List.getElem?_map, hf, Option.map_some, hname]
    exact ⟨(position, f), Schema.requireColumn_eq_ok.2 ⟨hindex, hf⟩, if_pos htype⟩

theorem TimesAt.eq {i j : Nat} (hi : s.TimesAt schema i) (hj : s.TimesAt schema j) : i = j :=
  Except.ok.inj ((timePosition_eq_ok.2 hi).symm.trans (timePosition_eq_ok.2 hj))

theorem timeOf_eq_ok {step : Row} {time : Int64} :
    s.timeOf position step = .ok time ↔ Row.time? step position = some time := by
  rw [timeOf, Row.time?]
  cases step[position]? with
  | none => simp
  | some v => cases v <;> simp [Value.time?]

theorem exists_timeOf_eq_ok {step : Row} :
    (∃ time, s.timeOf position step = .ok time) ↔ Row.time? step position ≠ none := by
  simp only [timeOf_eq_ok, Option.ne_none_iff_exists']

/-- The steps with their times. -/
def readTimes (s : GapSplit) (position : Nat) (steps : List Row) :
    Except Error (List (Int64 × Row)) :=
  steps.mapM fun step => (s.timeOf position step).map (·, step)

theorem readTimes_eq_ok : s.readTimes position steps = .ok timed ↔
    timed.map Prod.snd = steps ∧ ∀ q ∈ timed, Row.time? q.2 position = some q.1 := by
  rw [readTimes, mapM_eq_ok]
  simp only [map_eq_ok, timeOf_eq_ok]
  constructor
  · intro h
    induction h with
    | nil => exact ⟨rfl, fun _ hq => absurd hq List.not_mem_nil⟩
    | cons hstep _ ih =>
      obtain ⟨time, htime, rfl⟩ := hstep
      exact ⟨congrArg (_ :: ·) ih.1, List.forall_mem_cons.2 ⟨htime, ih.2⟩⟩
  · rintro ⟨rfl, h⟩
    exact List.forall₂_map_left_iff.2 (List.forall₂_same.2 fun q hq => ⟨q.1, h q hq, rfl⟩)

theorem readTimes_nil : s.readTimes position [] = .ok [] := rfl

theorem readTimes_cons {step : Row} : s.readTimes position (step :: steps) =
    s.timeOf position step >>= fun time =>
      (s.readTimes position steps).map fun rest => (time, step) :: rest := by
  rw [readTimes, List.mapM_cons]
  cases s.timeOf position step <;> rfl

theorem exists_readTimes_eq_ok : (∃ timed, s.readTimes position steps = .ok timed) ↔
    ∀ step ∈ steps, Row.time? step position ≠ none := by
  rw [readTimes, exists_mapM_eq_ok]
  exact forall₂_congr fun _ _ => exists_map_eq_ok.trans exists_timeOf_eq_ok

theorem split_eq_readTimes : s.split schema steps = s.timePosition schema >>= fun position =>
    (s.readTimes position steps).map s.pieces := rfl

theorem split_eq_ok {pieces : List (List Row)} : s.split schema steps = .ok pieces ↔
    ∃ position timed, s.TimesAt schema position ∧ s.readTimes position steps = .ok timed ∧
      s.pieces timed = pieces := by
  simp only [split_eq_readTimes, bind_eq_ok, map_eq_ok, timePosition_eq_ok, exists_and_left]

theorem exists_split_eq_ok : (∃ pieces, s.split schema steps = .ok pieces) ↔
    ∃ position, s.TimesAt schema position ∧ ∀ step ∈ steps, Row.time? step position ≠ none := by
  simp only [split_eq_ok, ← exists_readTimes_eq_ok (s := s)]
  constructor
  · rintro ⟨_, position, timed, hcolumn, hread, -⟩
    exact ⟨position, hcolumn, timed, hread⟩
  · rintro ⟨position, hcolumn, timed, hread⟩
    exact ⟨_, position, timed, hcolumn, hread, rfl⟩

theorem exists_split_eq_error : (∃ e, s.split schema steps = .error e) ↔
    (∀ position, ¬s.TimesAt schema position) ∨
      ∃ position, s.TimesAt schema position ∧
        ∃ step ∈ steps, Row.time? step position = none := by
  have hnot : (∃ e, s.split schema steps = .error e) ↔
      ¬∃ pieces, s.split schema steps = .ok pieces := by
    cases s.split schema steps <;> simp
  rw [hnot, exists_split_eq_ok]
  by_cases hcolumn : ∃ position, s.TimesAt schema position
  · obtain ⟨position, hcolumn⟩ := hcolumn
    have hall : ∀ p : Nat → Prop, (∃ i, s.TimesAt schema i ∧ p i) ↔ p position := fun p =>
      ⟨fun ⟨_, hi, hp⟩ => hi.eq hcolumn ▸ hp, fun hp => ⟨position, hcolumn, hp⟩⟩
    rw [hall, hall, or_iff_right fun hnone => hnone position hcolumn]
    push Not
    rfl
  · exact iff_of_true (fun ⟨position, h, _⟩ => hcolumn ⟨position, h⟩) (.inl (not_exists.1 hcolumn))

end Times

section Pieces

variable {last : Int64 × Row} {time : Int64} {step : Row}

/-- A gap is too large if the exact difference is above the maximum, unless that is the largest
number of 64 bits. -/
theorem isClose_eq_false_iff {before after : Int64} : s.isClose before after = false ↔
    s.maxGap.toInt < after.toInt - before.toInt ∧ s.maxGap.toInt < 2 ^ 63 - 1 := by
  have hnonneg := s.maxGap_nonneg
  rw [isClose, decide_eq_false_iff_not, toInt_clampInt64, clamp]
  omega

theorem isClose_of_le {wider : GapSplit} (hgap : s.maxGap.toInt ≤ wider.maxGap.toInt)
    {before after : Int64} (h : s.isClose before after = true) :
    wider.isClose before after = true :=
  decide_eq_true (Int.le_trans (of_decide_eq_true h) hgap)

/-- The pieces of timed steps, with their times. -/
def parts (s : GapSplit) (timed : List (Int64 × Row)) : List (List (Int64 × Row)) :=
  timed.splitBy fun p q => s.isClose p.1 q.1

theorem pieces_of_ne_nil (h : timed ≠ []) :
    s.pieces timed = (s.parts timed).map fun part => part.map Prod.snd := by
  cases timed with
  | nil => exact absurd rfl h
  | cons q timed => rfl

theorem flatten_pieces (s : GapSplit) (timed : List (Int64 × Row)) :
    (s.pieces timed).flatten = timed.map Prod.snd := by
  by_cases h : timed = []
  · rw [h]
    rfl
  · rw [pieces_of_ne_nil h, ← List.map_flatten, parts, List.flatten_splitBy]

theorem nil_notMem_pieces (h : timed ≠ []) : [] ∉ s.pieces timed := by
  rw [pieces_of_ne_nil h, List.mem_map]
  rintro ⟨part, hpart, hnil⟩
  exact List.ne_nil_of_mem_splitBy hpart (List.map_eq_nil_iff.1 hnil)

theorem pieces_of_mem {piece : List Row} (h : piece ∈ s.pieces timed) :
    ∃ part, (∀ q ∈ part, q ∈ timed) ∧ part.map Prod.snd = piece ∧ s.pieces part = [piece] := by
  by_cases hnil : timed = []
  · rw [hnil] at h
    rw [List.mem_singleton.1 h]
    exact ⟨[], fun _ hq => absurd hq List.not_mem_nil, rfl, rfl⟩
  · rw [pieces_of_ne_nil hnil] at h
    obtain ⟨part, hpart, rfl⟩ := List.mem_map.1 h
    have hne : part ≠ [] := List.ne_nil_of_mem_splitBy hpart
    have hwhole : s.parts part = [part] :=
      List.splitBy_of_isChain hne (List.isChain_of_mem_splitBy hpart)
    refine ⟨part, fun q hq => ?_, rfl, ?_⟩
    · rw [← List.flatten_splitBy (fun p q => s.isClose p.1 q.1) timed]
      exact List.mem_flatten_of_mem hpart hq
    · rw [pieces_of_ne_nil hne, hwhole, List.map_singleton]

theorem pieces_ne_nil (s : GapSplit) (timed : List (Int64 × Row)) : s.pieces timed ≠ [] := by
  by_cases h : timed = []
  · rw [h]
    exact List.cons_ne_nil _ _
  · rw [pieces_of_ne_nil h, Ne, List.map_eq_nil_iff]
    exact List.splitBy_ne_nil.2 h

/-- The pieces of a larger gap are neighbouring pieces put together. -/
theorem pieces_of_wider {wider : GapSplit} (hgap : s.maxGap.toInt ≤ wider.maxGap.toInt)
    (timed : List (Int64 × Row)) : ∃ groups : List (List (List Row)),
      (∀ group ∈ groups, group ≠ []) ∧ groups.flatten = s.pieces timed ∧
        wider.pieces timed = groups.map List.flatten := by
  by_cases h : timed = []
  · subst h
    exact ⟨[[[]]], by simp, rfl, rfl⟩
  refine ⟨(wider.parts timed).map s.pieces, ?_, ?_, ?_⟩
  · intro group hgroup
    obtain ⟨part, -, rfl⟩ := List.mem_map.1 hgroup
    exact s.pieces_ne_nil part
  · have hparts : (wider.parts timed).flatMap s.parts = s.parts timed :=
      flatMap_splitBy (fun _ _ => isClose_of_le hgap) timed
    have hpieces : ∀ part ∈ wider.parts timed,
        s.pieces part = (s.parts part).map fun part => part.map Prod.snd := fun _ hpart =>
      pieces_of_ne_nil (List.ne_nil_of_mem_splitBy hpart)
    rw [pieces_of_ne_nil h, ← hparts, List.map_flatMap, List.map_congr_left hpieces,
      List.flatMap_def]
  · rw [pieces_of_ne_nil h, List.map_map]
    exact List.map_congr_left fun part _ => (flatten_pieces s part).symm

theorem pieces_concat_of_far (h : s.isClose last.1 time = false) :
    s.pieces (timed ++ [last] ++ [(time, step)]) = s.pieces (timed ++ [last]) ++ [[step]] := by
  have hne : timed ++ [last] ≠ [] := List.append_ne_nil_of_right_ne_nil _ (List.cons_ne_nil _ _)
  have hparts : s.parts (timed ++ [last] ++ [(time, step)]) =
      s.parts (timed ++ [last]) ++ [[(time, step)]] := splitBy_concat_of_not h
  rw [pieces_of_ne_nil hne, pieces_of_ne_nil (List.append_ne_nil_of_left_ne_nil hne _), hparts,
    List.map_append]
  rfl

theorem pieces_concat_of_close {done : List (List Row)} {current : List Row}
    (hpieces : s.pieces (timed ++ [last]) = done ++ [current]) (h : s.isClose last.1 time = true) :
    s.pieces (timed ++ [last] ++ [(time, step)]) = done ++ [current ++ [step]] := by
  have hne : timed ++ [last] ≠ [] := List.append_ne_nil_of_right_ne_nil _ (List.cons_ne_nil _ _)
  rw [pieces_of_ne_nil hne] at hpieces
  obtain ⟨before, rest, hparts, rfl, hrest⟩ := List.map_eq_append_iff.1 hpieces
  obtain ⟨part, rfl, rfl⟩ := List.map_eq_singleton_iff.1 hrest
  have hjoined : s.parts (timed ++ [last] ++ [(time, step)]) = before ++ [part ++ [(time, step)]] :=
    splitBy_concat_of_related hparts h
  rw [pieces_of_ne_nil (List.append_ne_nil_of_left_ne_nil hne _), hjoined, List.map_append,
    List.map_singleton, List.map_append, List.map_singleton]

end Pieces

section OnePass

/-- What a pass over the steps carries: the pieces cut off, the piece that grows, the time before.
-/
structure Pass where
  done : List (List Row)
  current : List Row
  last : Option Int64

namespace Pass

def start : Pass := ⟨[], [], none⟩

/-- One more step starts a piece if it is too far from the one before. -/
def add (s : GapSplit) (pass : Pass) (time : Int64) (step : Row) : Pass :=
  match pass.last with
  | none => ⟨pass.done, pass.current ++ [step], some time⟩
  | some before =>
    if s.isClose before time then ⟨pass.done, pass.current ++ [step], some time⟩
    else ⟨pass.done ++ [pass.current], [step], some time⟩

def next (s : GapSplit) (position : Nat) (pass : Pass) (step : Row) : Except Error Pass :=
  (s.timeOf position step).map fun time => pass.add s time step

def pieces (pass : Pass) : List (List Row) := pass.done ++ [pass.current]

/-- After some timed steps the pass has their pieces and the last of their times. -/
structure Reads (s : GapSplit) (timed : List (Int64 × Row)) (pass : Pass) : Prop where
  pieces : s.pieces timed = pass.pieces
  last : pass.last = timed.getLast?.map Prod.fst

variable {pass : Pass} {before time : Int64} {step : Row}

theorem add_of_close (hlast : pass.last = some before) (h : s.isClose before time = true) :
    pass.add s time step = ⟨pass.done, pass.current ++ [step], some time⟩ := by
  rw [add, hlast]
  exact if_pos h

theorem add_of_far (hlast : pass.last = some before) (h : s.isClose before time = false) :
    pass.add s time step = ⟨pass.done ++ [pass.current], [step], some time⟩ := by
  rw [add, hlast]
  exact if_neg (Bool.eq_false_iff.1 h)

theorem reads_start (s : GapSplit) : start.Reads s [] := ⟨rfl, rfl⟩

theorem Reads.add (h : pass.Reads s timed) (time : Int64) (step : Row) :
    (pass.add s time step).Reads s (timed ++ [(time, step)]) := by
  obtain ⟨hpieces, hlast⟩ := h
  rcases List.eq_nil_or_concat timed with rfl | ⟨earlier, last, rfl⟩
  · obtain ⟨done, current, carried⟩ := pass
    have hempty : done ++ [current] = [] ++ [[]] := hpieces.symm
    obtain ⟨rfl, hcurrent⟩ := List.append_inj' hempty rfl
    obtain rfl := List.singleton_inj.1 hcurrent
    obtain rfl : carried = none := hlast
    exact ⟨rfl, rfl⟩
  · rw [List.concat_eq_append] at hpieces hlast ⊢
    rw [List.getLast?_concat] at hlast
    have hread : some time = (earlier ++ [last] ++ [(time, step)]).getLast?.map Prod.fst := by
      rw [List.getLast?_concat]
      rfl
    cases hclose : s.isClose last.1 time with
    | true =>
      rw [add_of_close hlast hclose]
      exact ⟨pieces_concat_of_close hpieces hclose, hread⟩
    | false =>
      rw [add_of_far hlast hclose]
      refine ⟨?_, hread⟩
      rw [pieces_concat_of_far hclose, hpieces]
      rfl

/-- From any point on the pass has the pieces of the steps whose times it reads, or the error of the
first time it cannot read. -/
theorem Reads.run (h : pass.Reads s timed) (steps : List Row) :
    (steps.foldlM (next s position) pass).map Pass.pieces =
      (s.readTimes position steps).map fun rest => s.pieces (timed ++ rest) := by
  induction steps generalizing timed pass with
  | nil =>
    rw [readTimes_nil, List.foldlM_nil]
    exact congrArg Except.ok (h.pieces.symm.trans (congrArg s.pieces (List.append_nil timed).symm))
  | cons step steps ih =>
    rw [readTimes_cons, List.foldlM_cons, next]
    cases s.timeOf position step with
    | error e => rfl
    | ok time =>
      refine (ih (h.add time step)).trans ?_
      cases s.readTimes position steps with
      | error e => rfl
      | ok rest =>
        exact congrArg (fun all => Except.ok (s.pieces all)) (List.append_assoc timed _ rest)

end Pass

/-- The pieces in one pass over the steps, which reads the time of each as it comes to it. -/
def splitInOnePass (s : GapSplit) (schema : Schema) (steps : List Row) :
    Except Error (List (List Row)) := do
  let position ← s.timePosition schema
  let pass ← steps.foldlM (Pass.next s position) Pass.start
  return pass.pieces

theorem split_eq_splitInOnePass (s : GapSplit) (schema : Schema) (steps : List Row) :
    s.split schema steps = s.splitInOnePass schema steps := by
  rw [split_eq_readTimes, splitInOnePass]
  congr 1
  funext position
  exact ((Pass.reads_start s).run steps).symm

end OnePass

section Cuts

theorem TimesAt.of_timeColumn {other : GapSplit} (h : other.timeColumn = s.timeColumn)
    (hcolumn : s.TimesAt schema position) : other.TimesAt schema position := by
  rwa [TimesAt, h]

/-- The pieces of some steps: together they are the steps, each stays whole when it is cut again,
and a larger gap joins neighbouring ones. -/
structure Cuts (s : GapSplit) (schema : Schema) (steps : List Row) (pieces : List (List Row)) :
    Prop where
  flatten : pieces.flatten = steps
  empty : steps = [] → pieces = [[]]
  nonempty : steps ≠ [] → ∀ piece ∈ pieces, piece ≠ []
  again : ∀ piece ∈ pieces, s.split schema piece = .ok [piece]
  wider : ∀ wider : GapSplit, wider.timeColumn = s.timeColumn →
    s.maxGap.toInt ≤ wider.maxGap.toInt → ∃ groups : List (List (List Row)),
      (∀ group ∈ groups, group ≠ []) ∧ groups.flatten = pieces ∧
        wider.split schema steps = .ok (groups.map List.flatten)

theorem cuts_pieces (hcolumn : s.TimesAt schema position)
    (hread : s.readTimes position steps = .ok timed) :
    s.Cuts schema steps (s.pieces timed) := by
  obtain ⟨rfl, htimed⟩ := readTimes_eq_ok.1 hread
  exact {
    flatten := s.flatten_pieces timed
    empty := by
      intro hnil
      rw [List.map_eq_nil_iff.1 hnil]
      rfl
    nonempty := by
      intro hne piece hpiece hnil
      exact nil_notMem_pieces (fun h => hne (congrArg _ h)) (hnil ▸ hpiece)
    again := by
      intro piece hpiece
      obtain ⟨part, hmem, hpart, hwhole⟩ := pieces_of_mem hpiece
      have hagain : s.readTimes position piece = .ok part :=
        readTimes_eq_ok.2 ⟨hpart, fun q hq => htimed q (hmem q hq)⟩
      exact split_eq_ok.2 ⟨position, part, hcolumn, hagain, hwhole⟩
    wider := by
      intro wider htimeColumn hgap
      obtain ⟨groups, hgroups, hflatten, hwider⟩ := pieces_of_wider hgap timed
      exact ⟨groups, hgroups, hflatten, split_eq_ok.2 ⟨position, timed,
        hcolumn.of_timeColumn htimeColumn, readTimes_eq_ok.2 ⟨rfl, htimed⟩, hwider⟩⟩ }

/-- A split gives what one pass over the steps gives, and fails exactly if the time column or some
time cannot be read. -/
theorem split_cuts (s : GapSplit) (schema : Schema) (steps : List Row) :
    s.split schema steps = s.splitInOnePass schema steps ∧
      ((∃ e, s.split schema steps = .error e) ↔
        (∀ position, ¬s.TimesAt schema position) ∨
          ∃ position, s.TimesAt schema position ∧
            ∃ step ∈ steps, Row.time? step position = none) ∧
      ∀ pieces, s.split schema steps = .ok pieces → s.Cuts schema steps pieces := by
  refine ⟨s.split_eq_splitInOnePass schema steps, exists_split_eq_error, fun pieces h => ?_⟩
  obtain ⟨position, timed, hcolumn, hread, rfl⟩ := split_eq_ok.1 h
  exact cuts_pieces hcolumn hread

end Cuts

section Starts

variable {pieces : List (List Row)}

theorem startsAt_pieces {i : Nat} {p q : Int64 × Row} (hp : timed[i]? = some p)
    (hq : timed[i + 1]? = some q) :
    StartsAt (s.pieces timed) (i + 1) ↔ s.isClose p.1 q.1 = false := by
  have hne : timed ≠ [] := fun hnil => by rw [hnil] at hp; cases hp
  rw [pieces_of_ne_nil hne, startsAt_map Prod.snd, parts, startsAt_splitBy hp hq]

/-- A piece starts before a step exactly if the exact difference of the times is above the gap, and
that is not the largest number of 64 bits. -/
theorem startsAt_iff (h : s.split schema steps = .ok pieces) :
    ∃ position, s.TimesAt schema position ∧
      ∀ i before after, steps[i]? = some before → steps[i + 1]? = some after →
        ∃ t u, Row.time? before position = some t ∧ Row.time? after position = some u ∧
          (StartsAt pieces (i + 1) ↔
            s.maxGap.toInt < u.toInt - t.toInt ∧ s.maxGap.toInt < 2 ^ 63 - 1) := by
  obtain ⟨position, timed, hcolumn, hread, rfl⟩ := split_eq_ok.1 h
  obtain ⟨rfl, htimed⟩ := readTimes_eq_ok.1 hread
  refine ⟨position, hcolumn, fun i before after hbefore hafter => ?_⟩
  rw [List.getElem?_map] at hbefore hafter
  obtain ⟨p, hp, rfl⟩ := Option.map_eq_some_iff.1 hbefore
  obtain ⟨q, hq, rfl⟩ := Option.map_eq_some_iff.1 hafter
  exact ⟨p.1, q.1, htimed p (List.mem_of_getElem? hp), htimed q (List.mem_of_getElem? hq),
    (startsAt_pieces hp hq).trans isClose_eq_false_iff⟩

theorem startsAt_iff_of_extremes :
    let s : GapSplit := ⟨"t", Int64.maxValue - 1, by decide⟩
    let schema : Schema := ⟨[⟨"t", .long⟩], by decide, by decide⟩
    let steps : List Row :=
      [[.long Int64.minValue], [.long Int64.maxValue], [.long Int64.minValue]]
    let pieces : List (List Row) :=
      [[[.long Int64.minValue]], [[.long Int64.maxValue], [.long Int64.minValue]]]
    s.split schema steps = .ok pieces ∧
      ∃ position, s.TimesAt schema position ∧
        ∀ i before after, steps[i]? = some before → steps[i + 1]? = some after →
          ∃ t u, Row.time? before position = some t ∧ Row.time? after position = some u ∧
            (StartsAt pieces (i + 1) ↔
              s.maxGap.toInt < u.toInt - t.toInt ∧ s.maxGap.toInt < 2 ^ 63 - 1) := by
  intro s schema steps pieces
  have hsplit : s.split schema steps = .ok pieces := rfl
  exact ⟨hsplit, startsAt_iff hsplit⟩

/-- With the largest gap of all, a jump of more than that gap does not start a piece. -/
theorem not_startsAt_of_limit :
    let s : GapSplit := ⟨"t", Int64.maxValue, by decide⟩
    let schema : Schema := ⟨[⟨"t", .long⟩], by decide, by decide⟩
    let steps : List Row := [[.long (-1)], [.long Int64.maxValue]]
    s.split schema steps = .ok [steps] ∧
      s.maxGap.toInt < Int64.maxValue.toInt - (-1 : Int64).toInt ∧ ¬StartsAt [steps] 1 := by
  intro s schema steps
  have hsplit : s.split schema steps = .ok [steps] := rfl
  refine ⟨hsplit, by decide, ?_⟩
  rintro ⟨before, piece, after, hpieces, hlength⟩
  cases before with
  | nil => cases hlength
  | cons first before => simp at hpieces

end Starts

end GapSplit

end Tabular
