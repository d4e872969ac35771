import Tabular.Proofs.Condition.Evaluation
import Tabular.Proofs.Run.Chunk

namespace Tabular

namespace BoundCondition

variable {b : BoundCondition} {bs : List BoundCondition} {row : Row} {rows kept : List Row}
  {keep answer : Bool}

/-- Whether a row has a given answer. -/
def answers (b : BoundCondition) (answer : Bool) (row : Row) : Bool :=
  (b.evaluateRow row).toOption == some answer

theorem answers_eq (h : b.evaluateRow row = .ok answer) (keep : Bool) :
    b.answers keep row = (answer == keep) := by
  rw [answers, h]
  rfl

/-- All rows have an answer. -/
def AnswersAll (b : BoundCondition) (rows : List Row) : Prop :=
  ∀ row ∈ rows, ∃ answer, b.evaluateRow row = .ok answer

theorem AnswersAll.evaluateRow_eq (h : b.AnswersAll rows) (hrow : row ∈ rows) :
    b.evaluateRow row = .ok (b.answers true row) := by
  obtain ⟨answer, hanswer⟩ := h row hrow
  rw [answers_eq hanswer, beq_true, hanswer]

theorem select_eq_ok : b.select keep rows = .ok kept ↔
    b.AnswersAll rows ∧ rows.filter (b.answers keep) = kept := by
  induction rows generalizing kept with
  | nil => exact ⟨fun h => ⟨nofun, Except.ok.inj h⟩, fun h => congrArg Except.ok h.2⟩
  | cons row rows ih =>
    rw [select, bind_eq_ok, AnswersAll, List.forall_mem_cons]
    constructor
    · rintro ⟨answer, hrow, h⟩
      obtain ⟨rest, hrest, h⟩ := bind_eq_ok.1 h
      obtain ⟨hrows, rfl⟩ := ih.1 hrest
      refine ⟨⟨⟨answer, hrow⟩, hrows⟩, ?_⟩
      rw [List.filter_cons, answers_eq hrow, ← Except.ok.inj h]
      simp only [beq_iff_eq]
    · rintro ⟨⟨⟨answer, hrow⟩, hrows⟩, rfl⟩
      refine ⟨answer, hrow, bind_eq_ok.2 ⟨_, ih.2 ⟨hrows, rfl⟩, ?_⟩⟩
      rw [List.filter_cons, answers_eq hrow]
      simp only [beq_iff_eq]
      rfl

theorem select_not (b : BoundCondition) (keep : Bool) (rows : List Row) :
    (BoundCondition.not b).select keep rows = b.select (!keep) rows := by
  induction rows with
  | nil => rfl
  | cons row rows ih =>
    rw [select, select, evaluateRow, ih]
    cases b.evaluateRow row with
    | error e => rfl
    | ok answer => cases answer <;> cases keep <;> rfl

theorem evaluateRow_and_cons (b : BoundCondition) (bs : List BoundCondition) (row : Row) :
    (BoundCondition.and (b :: bs)).evaluateRow row =
      b.evaluateRow row >>= fun answer =>
        if answer then (BoundCondition.and bs).evaluateRow row else .ok false := by
  rw [(isEvaluation_row row).and, allM_cons, (isEvaluation_row row).and]

theorem filter_answers_and_cons (b : BoundCondition) (bs : List BoundCondition) (rows : List Row) :
    rows.filter ((BoundCondition.and (b :: bs)).answers true) =
      (rows.filter (b.answers true)).filter ((BoundCondition.and bs).answers true) := by
  rw [List.filter_filter]
  refine List.filter_congr fun row _ => ?_
  rw [answers, evaluateRow_and_cons, Bool.and_comm, answers]
  cases b.evaluateRow row with
  | error e => rfl
  | ok answer => cases answer <;> rfl

/-- The conditions after the first one are only evaluated on the rows that satisfy it. -/
theorem answersAll_and_cons : (BoundCondition.and (b :: bs)).AnswersAll rows ↔
    b.AnswersAll rows ∧ (BoundCondition.and bs).AnswersAll (rows.filter (b.answers true)) := by
  rw [AnswersAll, AnswersAll, AnswersAll, List.forall_mem_filter, ← forall₂_and]
  refine forall₂_congr fun row _ => ?_
  rw [evaluateRow_and_cons, answers]
  cases b.evaluateRow row with
  | error e => simp [bind, Except.bind]
  | ok answer => cases answer <;> simp [bind, Except.bind, Except.toOption]

end BoundCondition

namespace Condition

variable {schema : Schema} {c : Condition} {cs : List Condition} {b : BoundCondition}

theorem bind_and : bind schema (.and cs) = .ok b ↔
    ∃ bs, bindAll schema cs = .ok bs ∧ .and bs = b := by
  rw [bind, bind_pure_eq_ok]

theorem bind_and_cons : bind schema (.and (c :: cs)) = .ok b ↔
    ∃ first others, c.bind schema = .ok first ∧ bind schema (.and cs) = .ok (.and others) ∧
      .and (first :: others) = b := by
  simp only [bind_and, BoundCondition.and.injEq, exists_eq_right]
  constructor
  · rintro ⟨bs, hbs, rfl⟩
    obtain ⟨first, hfirst, hbs⟩ := bind_eq_ok.1 hbs
    obtain ⟨others, hothers, rfl⟩ := bind_pure_eq_ok.1 hbs
    exact ⟨first, others, hfirst, hothers, rfl⟩
  · rintro ⟨first, others, hfirst, hothers, rfl⟩
    exact ⟨_, bind_eq_ok.2 ⟨first, hfirst, bind_pure_eq_ok.2 ⟨others, hothers, rfl⟩⟩, rfl⟩

end Condition

namespace Dataset

/-- The rows at the chosen positions, in order. -/
def rowsAt (d : Dataset) (chosen : Nat → Bool) : List Row :=
  (d.rows.zipIdx.filter fun p => chosen p.2).map Prod.fst

variable {d out : Dataset} {c : Condition} {keep : Bool}

theorem rowsAt_sublist (d : Dataset) (chosen : Nat → Bool) : (d.rowsAt chosen).Sublist d.rows := by
  have h := (List.filter_sublist (p := fun p => chosen p.2) (l := d.rows.zipIdx)).map Prod.fst
  rwa [List.zipIdx_map_fst] at h

theorem rowsAt_eq_filter {chosen : Nat → Bool} {p : Row → Bool}
    (h : ∀ i row, d.rows[i]? = some row → chosen i = p row) :
    d.rowsAt chosen = d.rows.filter p := by
  rw [rowsAt, List.filter_congr (q := p ∘ Prod.fst), ← List.filter_map, List.zipIdx_map_fst]
  intro x hx
  exact h x.2 x.1 (List.mem_zipIdx_iff_getElem?.1 hx)

/-- Whether a condition holds on the row at a position. -/
def holdsAt (d : Dataset) (b : BoundCondition) (i : Nat) : Bool :=
  d.rows[i]?.any (b.answers true)

theorem evaluateRow_eq_holdsAt {b : BoundCondition} (h : b.AnswersAll d.rows) {i : Nat} {row : Row}
    (hi : d.rows[i]? = some row) : b.evaluateRow row = .ok (d.holdsAt b i) := by
  rw [h.evaluateRow_eq (List.mem_of_getElem? hi), holdsAt, hi, Option.any_some]

theorem rowsAt_holdsAt {b : BoundCondition} (h : b.AnswersAll d.rows) :
    d.rowsAt (d.holdsAt b) = d.rows.filter (b.answers true) := by
  apply rowsAt_eq_filter
  intro i row hi
  rw [BoundCondition.answers_eq (evaluateRow_eq_holdsAt h hi), beq_true]

theorem rowsAt_not_holdsAt {b : BoundCondition} (h : b.AnswersAll d.rows) :
    (d.rowsAt fun i => !d.holdsAt b i) = d.rows.filter (b.answers false) := by
  apply rowsAt_eq_filter
  intro i row hi
  rw [BoundCondition.answers_eq (evaluateRow_eq_holdsAt h hi), beq_false]

theorem retain_eq_ok : d.retain c keep = .ok out ↔
    ∃ b, c.bind d.schema = .ok b ∧ b.AnswersAll d.rows ∧
      { d with rows := d.rows.filter (b.answers keep) } = out := by
  rw [retain, bind_eq_ok]
  refine exists_congr fun b => and_congr_right fun _ => ?_
  rw [bind_pure_eq_ok]
  simp only [BoundCondition.select_eq_ok]
  exact ⟨fun ⟨_, ⟨hrows, hkept⟩, hout⟩ => ⟨hrows, hkept ▸ hout⟩,
    fun ⟨hrows, hout⟩ => ⟨_, ⟨hrows, rfl⟩, hout⟩⟩

theorem retain_eq_error {e : Error} : d.retain c keep = .error e ↔
    c.bind d.schema = .error e ∨
      ∃ b, c.bind d.schema = .ok b ∧ FirstError b.evaluateRow d.rows e := by
  rw [retain]
  cases c.bind d.schema with
  | error e' => simp [bind, Except.bind]
  | ok b =>
    simp only [reduceCtorEq, Except.ok.injEq, exists_eq_left', false_or]
    rw [← (failsWith_select b keep).iff]
    change (b.select keep d.rows >>= fun rows => .ok { d with rows := rows }) = _ ↔ _
    cases b.select keep d.rows with
    | error e' => exact error_eq_error
    | ok rows => exact ok_eq_error

theorem retain_not (d : Dataset) (c : Condition) (keep : Bool) :
    d.retain (.not c) keep = d.retain c (!keep) := by
  rw [retain, retain, Condition.bind]
  cases c.bind d.schema with
  | error e => rfl
  | ok b =>
    change (BoundCondition.not b).select keep d.rows >>= _ = b.select (!keep) d.rows >>= _
    rw [BoundCondition.select_not]

/-- Keeping and removing by a condition deal the rows out, or fail with the same error; negating the
condition exchanges the two. -/
theorem partition_by_condition (d : Dataset) (c : Condition) :
    ((∃ e, (c.bind d.schema = .error e ∨
          ∃ b, c.bind d.schema = .ok b ∧ FirstError b.evaluateRow d.rows e) ∧
        d.filterWhere c = .error e ∧ d.removeWhere c = .error e) ∨
      ∃ b chosen, c.bind d.schema = .ok b ∧
        (∀ i row, d.rows[i]? = some row → b.evaluateRow row = .ok (chosen i)) ∧
        d.filterWhere c = .ok { d with rows := d.rowsAt chosen } ∧
        d.removeWhere c = .ok { d with rows := d.rowsAt fun i => !chosen i } ∧
        (d.rowsAt chosen).Sublist d.rows ∧ (d.rowsAt fun i => !chosen i).Sublist d.rows) ∧
    d.filterWhere (.not c) = d.removeWhere c ∧ d.removeWhere (.not c) = d.filterWhere c := by
  refine ⟨?_, d.retain_not c true, d.retain_not c false⟩
  cases hkept : d.filterWhere c with
  | error e =>
    have herror := retain_eq_error.1 hkept
    exact .inl ⟨e, herror, rfl, retain_eq_error.2 herror⟩
  | ok kept =>
    obtain ⟨b, hb, hrows, rfl⟩ := retain_eq_ok.1 hkept
    have hremoved : d.removeWhere c = .ok { d with rows := d.rows.filter (b.answers false) } :=
      retain_eq_ok.2 ⟨b, hb, hrows, rfl⟩
    rw [← rowsAt_holdsAt hrows]
    rw [← rowsAt_not_holdsAt hrows] at hremoved
    exact .inr ⟨b, d.holdsAt b, hb, fun i row hi => evaluateRow_eq_holdsAt hrows hi, rfl, hremoved,
      d.rowsAt_sublist _, d.rowsAt_sublist _⟩

theorem filterWhere_and_nil (d : Dataset) : d.filterWhere (.and []) = .ok d := by
  have hrows : d.rows.filter ((BoundCondition.and []).answers true) = d.rows :=
    List.filter_eq_self.2 fun _ _ => rfl
  exact retain_eq_ok.2 ⟨.and [], rfl, fun _ _ => ⟨true, rfl⟩, by rw [hrows]⟩

theorem filterWhere_and_cons {cs : List Condition} : d.filterWhere (.and (c :: cs)) = .ok out ↔
    ∃ between, d.filterWhere c = .ok between ∧ between.filterWhere (.and cs) = .ok out := by
  simp only [filterWhere, retain_eq_ok]
  constructor
  · rintro ⟨_, hbind, hanswers, rfl⟩
    obtain ⟨first, others, hfirst, hothers, rfl⟩ := Condition.bind_and_cons.1 hbind
    obtain ⟨hrows, hkept⟩ := BoundCondition.answersAll_and_cons.1 hanswers
    refine ⟨_, ⟨first, hfirst, hrows, rfl⟩, .and others, hothers, hkept, ?_⟩
    rw [BoundCondition.filter_answers_and_cons]
  · rintro ⟨_, ⟨first, hfirst, hrows, rfl⟩, _, hbind, hkept, rfl⟩
    obtain ⟨others, -, rfl⟩ := Condition.bind_and.1 hbind
    refine ⟨_, Condition.bind_and_cons.2 ⟨first, others, hfirst, hbind, rfl⟩,
      BoundCondition.answersAll_and_cons.2 ⟨hrows, hkept⟩, ?_⟩
    rw [BoundCondition.filter_answers_and_cons]

theorem filterWhere_and (d out : Dataset) (cs : List Condition) :
    d.filterWhere (.and cs) = .ok out ↔ cs.foldlM filterWhere d = .ok out := by
  induction cs generalizing d with
  | nil => rw [filterWhere_and_nil]; rfl
  | cons c cs ih =>
    rw [filterWhere_and_cons, List.foldlM_cons, bind_eq_ok]
    exact exists_congr fun between => and_congr_right fun _ => ih between

/-- Keeping by two conditions at once is keeping by the first and then by the second, but for the
error. -/
theorem filterWhere_and_pair (d out : Dataset) (a b : Condition) :
    d.filterWhere (.and [a, b]) = .ok out ↔
      ∃ between, d.filterWhere a = .ok between ∧ between.filterWhere b = .ok out := by
  rw [filterWhere_and_cons]
  refine exists_congr fun between => and_congr_right fun _ => ?_
  simp only [filterWhere_and_cons, filterWhere_and_nil, Except.ok.injEq, exists_eq_right]

end Dataset

end Tabular
