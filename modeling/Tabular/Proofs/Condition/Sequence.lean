import Tabular.Proofs.Condition.Binding

namespace Tabular

/-- Whether a column condition holds of a sequence: on every step or on some step, by its mode. -/
def ColumnCondition.holdsOn (schema : Schema) (sequence : List Row) (c : ColumnCondition) : Bool :=
  match c.mode with
  | .and => sequence.all fun row => c.holdsAt schema row
  | .or => sequence.any fun row => c.holdsAt schema row
  | .none => false

namespace BoundCondition

variable {c : ColumnCondition} {i : Nat} {sequence : List Row}

theorem everyStep_eq_allM (c : ColumnCondition) (i : Nat) (sequence : List Row) :
    everyStep c i sequence = sequence.allM (cell c i) := by
  induction sequence with
  | nil => rfl
  | cons row sequence ih => rw [everyStep, allM_cons, ih]

theorem someStep_eq_anyM (c : ColumnCondition) (i : Nat) (sequence : List Row) :
    someStep c i sequence = sequence.anyM (cell c i) := by
  induction sequence with
  | nil => rfl
  | cons row sequence ih => rw [someStep, anyM_cons, ih]

theorem columnSequence_singleton (hmode : c.mode ≠ .none) (row : Row) :
    columnSequence c i [row] = cell c i row := by
  rw [columnSequence]
  cases hm : c.mode with
  | and =>
    simp only [everyStep]
    cases cell c i row with
    | error e => rfl
    | ok x => cases x <;> rfl
  | or =>
    simp only [someStep]
    cases cell c i row with
    | error e => rfl
    | ok x => cases x <;> rfl
  | none => exact absurd hm hmode

end BoundCondition

namespace ColumnCondition

variable {c : ColumnCondition} {schema : Schema} {leaf : BoundCondition}

/-- Where a bound column condition has an answer on every step, it has the one its mode makes of
them on the sequence. -/
theorem evaluateSequence_of_cell? (hleaf : c.bind schema = .ok leaf) (hmode : c.mode ≠ .none)
    {sequence : List Row}
    (hsteps : ∀ row ∈ sequence, ∃ v answer, schema.cell? row c.column = some v ∧
      c.evaluate v = .ok answer) :
    leaf.evaluateSequence sequence = .ok (c.holdsOn schema sequence) := by
  obtain ⟨i, f, hcolumn, -, rfl⟩ := bind_iff.1 hleaf
  have hcells : List.Forall₂
      (fun step row => BoundCondition.cell c i row = .ok (c.holdsAt schema step))
      sequence sequence := by
    apply List.forall₂_same.2
    intro row hrow
    obtain ⟨v, answer, hv, hanswer⟩ := hsteps row hrow
    have hholds : c.holdsAt schema row = answer := by
      rw [holdsAt, hv, Option.any_some, hanswer]
      cases answer <;> rfl
    have hcell := evaluateRow_of_cell? hleaf hv
    rw [BoundCondition.evaluateRow] at hcell
    rw [hcell, hanswer, hholds]
  rw [BoundCondition.evaluateSequence, BoundCondition.columnSequence, holdsOn]
  cases hm : c.mode with
  | and =>
    simp only
    rw [BoundCondition.everyStep_eq_allM]
    exact allM_eq_all hcells
  | or =>
    simp only
    rw [BoundCondition.someStep_eq_anyM]
    exact anyM_eq_any hcells
  | none => exact absurd hm hmode

theorem evaluateSequence_singleton (hleaf : c.bind schema = .ok leaf) (hmode : c.mode ≠ .none)
    (row : Row) : leaf.evaluateSequence [row] = leaf.evaluateRow row := by
  obtain ⟨i, f, -, -, rfl⟩ := bind_iff.1 hleaf
  rw [BoundCondition.evaluateSequence, BoundCondition.evaluateRow]
  exact BoundCondition.columnSequence_singleton hmode row

end ColumnCondition

namespace Condition

/-- A bound condition answers a sequence as its connectives do on what holds on all steps or on
some, and a single row as the row. -/
theorem evaluateSequence_bind {schema : Schema} {t : Condition} {b : BoundCondition}
    (hb : t.bind schema = .ok b) (modes : ∀ c ∈ t.columns, c.mode ≠ .none) :
    (∀ sequence : List Row,
      (∀ row ∈ sequence, ∀ c ∈ t.columns, ∃ v answer, schema.cell? row c.column = some v ∧
        c.evaluate v = .ok answer) →
      b.evaluateSequence sequence =
        .ok (t.denote (ColumnCondition.holdsOn schema sequence))) ∧
    ∀ row : Row, b.evaluateSequence [row] = b.evaluateRow row := by
  constructor
  · intro sequence hsteps
    apply (BoundCondition.isEvaluation_sequence sequence).eq_denote hb
    intro c hc leaf hleaf
    apply ColumnCondition.evaluateSequence_of_cell? hleaf (modes c hc)
    intro row hrow
    exact hsteps row hrow c hc
  · intro row
    apply (BoundCondition.isEvaluation_sequence [row]).eq_of_columns
      (BoundCondition.isEvaluation_row row) hb
    intro c hc leaf hleaf
    exact ColumnCondition.evaluateSequence_singleton hleaf (modes c hc) row

theorem evaluateSequence_bind_of_two :
    let schema : Schema := ⟨[⟨"name", .string⟩, ⟨"n", .long⟩], by decide, by decide⟩
    ∃ positive named b,
      ColumnCondition.longWithMode "n" .and .greaterThan 0 = .ok positive ∧
      ColumnCondition.string "name" .equal "x" = .ok named ∧
      bind schema (.xor (.column positive) (.not (.column named))) = .ok b ∧
      b.evaluateSequence [[.string "x", .long 3], [.string "y", .long 1]] = .ok true ∧
      b.evaluateSequence [] = .ok false ∧
      b.evaluateSequence [[.string "x"]] =
        .error (.schema (.conditionColumn 1 1 "n")) := by
  intro schema
  let positive : ColumnCondition :=
    ⟨"n", .and, .greaterThan, .scalar (.long 0), .long, .whole 0⟩
  let named : ColumnCondition :=
    ⟨"name", .or, .equal, .scalar (.string "x"), .string, .text "x"⟩
  let t : Condition := .xor (.column positive) (.not (.column named))
  have modes : ∀ c ∈ t.columns, c.mode ≠ .none :=
    List.forall_mem_cons.2 ⟨by decide, List.forall_mem_singleton.2 (by decide)⟩
  have hb : bind schema t = .ok (.xor (.column positive 1) (.not (.column named 0))) := rfl
  obtain ⟨sound, single⟩ := evaluateSequence_bind hb modes
  refine ⟨positive, named, _, rfl, rfl, hb, ?_, ?_, ?_⟩
  · apply sound
    intro row hrow c hc
    simp only [List.mem_cons, List.not_mem_nil, or_false] at hrow
    simp only [t, columns, List.cons_append, List.nil_append, List.mem_cons, List.not_mem_nil,
      or_false] at hc
    rcases hrow with rfl | rfl <;> rcases hc with rfl | rfl <;> exact ⟨_, _, rfl, rfl⟩
  · apply sound
    intro row hrow
    cases hrow
  · exact single [.string "x"]

end Condition

end Tabular
