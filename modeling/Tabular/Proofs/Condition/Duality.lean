import Tabular.Proofs.Condition.Evaluation

namespace Tabular

namespace BoundCondition

/-- Two bound conditions give one answer or fail with one error, on every row and on every sequence.
-/
structure Agrees (b b' : BoundCondition) : Prop where
  row (row : Row) : b.evaluateRow row = b'.evaluateRow row
  sequence (sequence : List Row) : b.evaluateSequence sequence = b'.evaluateSequence sequence

theorem agrees_of_isEvaluation {b b' : BoundCondition}
    (h : ∀ evaluate, IsEvaluation evaluate → evaluate b = evaluate b') : b.Agrees b' where
  row row := h _ (isEvaluation_row row)
  sequence sequence := h _ (isEvaluation_sequence sequence)

namespace IsEvaluation

variable {evaluate : BoundCondition → Except Error Bool}

theorem not_not (h : IsEvaluation evaluate) (b : BoundCondition) :
    evaluate (.not (.not b)) = evaluate b := by
  rw [h.not, h.not]
  cases evaluate b with
  | error e => rfl
  | ok x => exact congrArg Except.ok (Bool.not_not x)

/-- What is true goes on under `and`, and what its negation makes false goes on under `or`. -/
theorem not_and (h : IsEvaluation evaluate) (bs : List BoundCondition) :
    evaluate (.not (.and bs)) = evaluate (.or (bs.map .not)) := by
  rw [h.not, h.and, h.or]
  induction bs with
  | nil => rfl
  | cons b bs ih =>
    rw [List.map_cons, allM_cons, anyM_cons, ← ih, h.not]
    cases evaluate b with
    | error e => rfl
    | ok x => cases x <;> rfl

theorem not_or (h : IsEvaluation evaluate) (bs : List BoundCondition) :
    evaluate (.not (.or bs)) = evaluate (.and (bs.map .not)) := by
  have hor : evaluate (.or bs) = evaluate (.or ((bs.map .not).map .not)) := by
    rw [h.or, h.or, List.map_map, anyM_map]
    exact anyM_congr fun b _ => (h.not_not b).symm
  calc evaluate (.not (.or bs))
      = evaluate (.not (.or ((bs.map .not).map .not))) := by rw [h.not, h.not, hor]
    _ = evaluate (.not (.not (.and (bs.map .not)))) := by rw [h.not, h.not _, h.not_and]
    _ = evaluate (.and (bs.map .not)) := h.not_not _

theorem xor_eq_or (h : IsEvaluation evaluate) (a b : BoundCondition) :
    evaluate (.xor a b) = evaluate (.or [.and [a, .not b], .and [.not a, b]]) := by
  rw [h.xor, h.or, anyM_cons, anyM_cons, h.and, h.and, allM_cons, allM_cons, allM_cons, allM_cons,
    h.not, h.not]
  cases evaluate a with
  | error e => rfl
  | ok x =>
    cases evaluate b with
    | error e => cases x <;> rfl
    | ok y => cases x <;> cases y <;> rfl

end IsEvaluation

end BoundCondition

/-- Two bindings that fail with one error, or succeed with conditions that agree. -/
inductive SameOutcome : Except Error BoundCondition → Except Error BoundCondition → Prop where
  | ok {b b' : BoundCondition} (agrees : b.Agrees b') : SameOutcome (.ok b) (.ok b')
  | error (e : Error) : SameOutcome (.error e) (.error e)

theorem SameOutcome.map {α : Type} {f g : α → BoundCondition} (h : ∀ a, (f a).Agrees (g a))
    (x : Except Error α) : SameOutcome (x.map f) (x.map g) := by
  cases x with
  | error e => exact .error e
  | ok a => exact .ok (h a)

namespace Condition

/-- Two conditions bind to the same schemas, fail on others with the same error, and agree where
they bind. -/
def Equivalent (t u : Condition) : Prop :=
  ∀ schema, SameOutcome (t.bind schema) (u.bind schema)

theorem bind_not_eq_map (schema : Schema) (t : Condition) :
    bind schema (.not t) = (t.bind schema).map .not :=
  bind_eq_map fun _ => rfl

theorem bind_and_eq_map (schema : Schema) (cs : List Condition) :
    bind schema (.and cs) = (bindAll schema cs).map .and :=
  bind_eq_map fun _ => rfl

theorem bind_or_eq_map (schema : Schema) (cs : List Condition) :
    bind schema (.or cs) = (bindAll schema cs).map .or :=
  bind_eq_map fun _ => rfl

theorem bindAll_map_not (schema : Schema) (cs : List Condition) :
    bindAll schema (cs.map .not) = (bindAll schema cs).map (List.map .not) := by
  induction cs with
  | nil => rfl
  | cons c cs ih =>
    rw [List.map_cons, bindAll, bindAll, ih, bind_not_eq_map]
    cases c.bind schema with
    | error e => rfl
    | ok b => cases bindAll schema cs <;> rfl

theorem not_and_equivalent (cs : List Condition) :
    Equivalent (.not (.and cs)) (.or (cs.map .not)) := by
  intro schema
  rw [bind_not_eq_map, bind_and_eq_map, bind_or_eq_map, bindAll_map_not, map_map, map_map]
  exact SameOutcome.map (fun bs => BoundCondition.agrees_of_isEvaluation fun _ h => h.not_and bs) _

theorem not_or_equivalent (cs : List Condition) :
    Equivalent (.not (.or cs)) (.and (cs.map .not)) := by
  intro schema
  rw [bind_not_eq_map, bind_or_eq_map, bind_and_eq_map, bindAll_map_not, map_map, map_map]
  exact SameOutcome.map (fun bs => BoundCondition.agrees_of_isEvaluation fun _ h => h.not_or bs) _

theorem not_not_equivalent (t : Condition) : Equivalent (.not (.not t)) t := by
  intro schema
  rw [bind_not_eq_map, bind_not_eq_map, map_map]
  cases t.bind schema with
  | error e => exact .error e
  | ok b => exact .ok (BoundCondition.agrees_of_isEvaluation fun _ h => h.not_not b)

theorem xor_equivalent (t u : Condition) :
    Equivalent (.xor t u) (.or [.and [t, .not u], .and [.not t, u]]) := by
  intro schema
  simp only [bind, bindAll]
  cases t.bind schema with
  | error e => exact .error e
  | ok a =>
    cases u.bind schema with
    | error e => exact .error e
    | ok b => exact .ok (BoundCondition.agrees_of_isEvaluation fun _ h => h.xor_eq_or a b)

/-- Negation turns `and` and `or` into one another, cancels out, and expresses `xor` by the other
connectives, on every schema and in every evaluation, errors included. -/
theorem boolean_laws :
    (∀ cs, Equivalent (.not (.and cs)) (.or (cs.map .not))) ∧
      (∀ cs, Equivalent (.not (.or cs)) (.and (cs.map .not))) ∧
      (∀ t, Equivalent (.not (.not t)) t) ∧
      ∀ t u, Equivalent (.xor t u) (.or [.and [t, .not u], .and [.not t, u]]) :=
  ⟨not_and_equivalent, not_or_equivalent, not_not_equivalent, xor_equivalent⟩

end Condition

end Tabular
