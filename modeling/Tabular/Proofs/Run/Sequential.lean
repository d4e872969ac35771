import Tabular.Proofs.Run.Analyze
import Tabular.Proofs.Transform.Selection

namespace Tabular

theorem Dataset.mapRows_eq_error (d : Dataset) (f : Row → Row) (err : Error) :
    d.mapRows f = .error err ↔ FirstError (d.schema.mapRow f) d.rows err := by
  rw [← (failsWith_mapM (d.schema.mapRow f)).iff, Dataset.mapRows]
  cases d.rows.mapM (d.schema.mapRow f) with
  | error e => exact error_eq_error
  | ok rows => exact ok_eq_error

theorem Dataset.filterWhere_eq_error (d : Dataset) {c : Condition} {b : BoundCondition}
    (hb : c.bind d.schema = .ok b) (err : Error) :
    d.filterWhere c = .error err ↔ FirstError b.evaluateRow d.rows err := by
  rw [Dataset.filterWhere, Dataset.retain_eq_error, hb]
  simp only [reduceCtorEq, Except.ok.injEq, exists_eq_left', false_or]

namespace Pool

variable (p : Pool) (e : Engine) (d : Dataset) (t : Trace) (elapsed : Nat)

theorem concat_result (d : Dataset) (outs : List (List Row)) (t : Trace) :
    (Engine.concat d outs t).result = .ok { d with rows := outs.flatten } :=
  rfl

theorem filterRows_eq_ok (f : Row → Bool) (out : Dataset) :
    p.filterRows e d t f = .ok out ↔ (e.filterRows d f elapsed).result = .ok out :=
  p.run_eq_ok e d t (concat_result d) "filter" elapsed out

theorem filterWhere_eq_ok (c : Condition) (out : Dataset) :
    p.filterWhere e d t c = .ok out ↔ (e.filterWhere d c elapsed).result = .ok out := by
  rw [filterWhere, Engine.filterWhere]
  cases c.bind d.schema with
  | error err => exact Iff.rfl
  | ok b => exact p.run_eq_ok e d t (concat_result d) "filter_condition" elapsed out

theorem mapRows_eq_ok (f : Row → Row) (out : Dataset) :
    p.mapRows e d t f = .ok out ↔ (e.mapRows d f elapsed).result = .ok out :=
  p.run_eq_ok e d t (concat_result d) "map" elapsed out

theorem analyze_eq_ok (report : Report) :
    p.analyze e d t = .ok report ↔ (e.analyze d elapsed).result = .ok report :=
  p.run_eq_ok e d t (Engine.reportAll_result d.schema) "analyze" elapsed report

/-- A single worker takes the chunks in order. -/
def single : Pool where
  collect results := results.mapM id
  collect_eq_ok results outs := by rw [mapM_eq_ok_iff_map, List.map_id]

end Pool

/-- An engine gives the results of the operations on all rows at once; in order it gives their
errors too, and a pool fails on the same datasets. -/
theorem Engine.agrees_with_sequential (e : Engine) (he : 0 < e.options.chunkSize) (p : Pool)
    (d : Dataset) (few : d.rowCount < 2 ^ 64) (t : Trace) (elapsed : Nat) :
    (∀ f, (e.filterRows d f elapsed).result = .ok (d.filterRows f) ∧
      p.filterRows e d t f = .ok (d.filterRows f)) ∧
    (∀ c, (e.filterWhere d c elapsed).result = d.filterWhere c ∧
      (∀ out, p.filterWhere e d t c = .ok out ↔ d.filterWhere c = .ok out) ∧
      ∀ b err, c.bind d.schema = .ok b →
        (d.filterWhere c = .error err ↔ FirstError b.evaluateRow d.rows err)) ∧
    (∀ f, (e.mapRows d f elapsed).result = d.mapRows f ∧
      (∀ out, p.mapRows e d t f = .ok out ↔ d.mapRows f = .ok out) ∧
      ∀ err, d.mapRows f = .error err ↔ FirstError (d.schema.mapRow f) d.rows err) ∧
    (e.analyze d elapsed).result = d.analyze ∧
    (∀ report, p.analyze e d t = .ok report ↔ d.analyze = .ok report) ∧
    ∀ err, d.analyze = .error err ↔ FirstError (Analysis.ofSchema d.schema).addRow d.rows err := by
  refine ⟨fun f => ?_, fun c => ?_, fun f => ?_, ?_, ?_, ?_⟩
  · have hresult := e.filterRows_result he d elapsed f
    exact ⟨hresult, (p.filterRows_eq_ok e d t elapsed f _).2 hresult⟩
  · have hresult := e.filterWhere_result he d elapsed c
    exact ⟨hresult, fun out => by rw [p.filterWhere_eq_ok e d t elapsed, hresult],
      fun b err hb => d.filterWhere_eq_error hb err⟩
  · have hresult := e.mapRows_result he d elapsed f
    exact ⟨hresult, fun out => by rw [p.mapRows_eq_ok e d t elapsed, hresult],
      d.mapRows_eq_error f⟩
  · exact e.analyze_result he d few elapsed
  · intro report
    rw [p.analyze_eq_ok e d t elapsed, e.analyze_result he d few elapsed]
  · exact d.analyze_eq_error few

theorem Engine.agrees_with_sequential_of_three :
    let e : Engine := ⟨⟨some 1, 2, 1⟩, .empty⟩
    let schema : Schema := ⟨[⟨"id", .integer⟩], by decide, by decide⟩
    let d : Dataset := ⟨schema, [[.integer 4], [.null .integer], [.boolean true]]⟩
    let complete : Row → Bool := fun row => !(row.any Value.isNull)
    (e.filterRows d complete 0).result = .ok ⟨schema, [[.integer 4], [.boolean true]]⟩ ∧
      Pool.single.filterRows e d ⟨.empty, []⟩ complete =
        .ok ⟨schema, [[.integer 4], [.boolean true]]⟩ ∧
      (e.analyze d 0).result =
        .error (.typeMismatch (.ofType .integer) (.value (.boolean true))) := by
  intro e schema d complete
  obtain ⟨hfilter, -, -, hanalyze, -, herror⟩ :=
    Engine.agrees_with_sequential e (by decide) Pool.single d (by decide) ⟨.empty, []⟩ 0
  refine ⟨(hfilter complete).1, (hfilter complete).2, hanalyze.trans ((herror _).2 ?_)⟩
  refine ⟨[[.integer 4], [.null .integer]], [.boolean true], [], rfl, ?_, rfl⟩
  intro row hrow
  simp only [List.mem_cons, List.not_mem_nil, or_false] at hrow
  rcases hrow with rfl | rfl <;> exact ⟨_, rfl⟩

end Tabular
