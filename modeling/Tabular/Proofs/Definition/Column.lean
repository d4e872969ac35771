import Tabular.Definition.Condition
import Tabular.Proofs.Condition.Column
import Tabular.Proofs.Definition.Cell

namespace Tabular

theorem Operator.ofName?_name (op : Operator) : ofName? op.name = some op := by
  cases op <;> decide

theorem SequenceMode.ofName?_name (mode : SequenceMode) : ofName? mode.name = some mode := by
  cases mode <;> decide

theorem ColumnType.ofTag?_tag (type : ColumnType) : ofTag? type.tag = some type := by
  cases type <;> decide

/-- An operand written to a definition and read as one of a type. -/
def Operand.reread (type : ColumnType) : Operand → Except Error Operand
  | .scalar v => (Value.ofNode type v.toNode).map .scalar
  | .set values => (values.mapM fun v => Value.ofNode type v.toNode).map .set

theorem Operand.reread_eq_self {operand : Operand} {type : ColumnType}
    (h : ∀ v ∈ operand.values, type.accepts v = true ∧ v.isNaN = false) :
    operand.reread type = .ok operand := by
  cases operand with
  | scalar v =>
    obtain ⟨haccepts, hnan⟩ := h v (List.mem_singleton_self v)
    rw [reread, Value.ofNode_toNode haccepts hnan]
    rfl
  | set values =>
    have hvalues : values.mapM (fun v => Value.ofNode type v.toNode) = .ok values :=
      mapM_eq_ok.2 (List.forall₂_same.2 fun v hv => Value.ofNode_toNode (h v hv).1 (h v hv).2)
    rw [reread, hvalues]
    rfl

namespace ColumnCondition

/-- A condition before its operand is read; a missing operand counts as absent. -/
def form (c : ColumnCondition) : ColumnForm where
  column := c.column
  op := c.op
  type := c.operandType
  value := match c.operand with
    | .scalar v => ColumnForm.present? (some v.toNode)
    | .set _ => none
  set := match c.operand with
    | .scalar _ => none
    | .set values => some (values.map Value.toNode)
  mode := c.mode

theorem key_ne (c : ColumnCondition) : ∀ p ∈ c.toDefinition, p.1 ≠ "condition" := by
  obtain ⟨column, mode, op, operand, type, matcher⟩ := c
  cases operand <;> simp [toDefinition]

theorem ofParts?_toDefinition (tagged : Bool) (c : ColumnCondition) :
    ColumnForm.ofParts? tagged (.named c.toDefinition) = some c.form := by
  obtain ⟨column, mode, op, operand, type, matcher⟩ := c
  cases operand with
  | scalar v =>
    have hselect : Parts.select
        ["columnName", "op", "type", "value", "set", "sequenceConditionMode"]
        (.named (toDefinition ⟨column, mode, op, .scalar v, type, matcher⟩)) =
        some [some (.text column), some (.text op.name), some (.text type.tag), some v.toNode, none,
          some (.text mode.name)] := rfl
    simp [ColumnForm.ofParts?, hselect, ColumnForm.present?, Node.text?, Node.choice?, form,
      Operator.ofName?_name, SequenceMode.ofName?_name, ColumnType.ofTag?_tag]
  | set values =>
    have hselect : Parts.select
        ["columnName", "op", "type", "value", "set", "sequenceConditionMode"]
        (.named (toDefinition ⟨column, mode, op, .set values, type, matcher⟩)) =
        some [some (.text column), some (.text op.name), some (.text type.tag), none,
          some (.list (values.map Value.toNode)), some (.text mode.name)] := rfl
    simp [ColumnForm.ofParts?, hselect, ColumnForm.present?, Node.text?, Node.choice?, Node.list?,
      form, Operator.ofName?_name, SequenceMode.ofName?_name, ColumnType.ofTag?_tag]

theorem build_form {c : ColumnCondition} (h : ∀ v ∈ c.operand.values, v.isNull = false) :
    c.form.build = c.operand.reread c.operandType >>= fun operand =>
      typed c.column c.mode c.op operand c.operandType := by
  obtain ⟨column, mode, op, operand, type, matcher⟩ := c
  cases operand with
  | scalar v =>
    have hpresent : ColumnForm.present? (some v.toNode) = some v.toNode := by
      have hnull : v.toNode ≠ .null := by
        rw [ne_eq, Value.toNode_eq_null_iff, h v (List.mem_singleton_self v)]
        exact Bool.false_ne_true
      cases hn : v.toNode with
      | null => exact absurd hn hnull
      | _ => rfl
    simp only [form, ColumnForm.build, hpresent]
    rfl
  | set values =>
    simp only [form, ColumnForm.build, List.mapM_map]
    rfl

/-- A condition that is built from an operand whose values have the declared type. -/
structure IsTyped (c : ColumnCondition) : Prop where
  built : c.IsBuilt
  accepted : ∀ v ∈ c.operand.values, c.operandType.accepts v = true

variable {c : ColumnCondition} {column : String} {mode : SequenceMode} {op : Operator}
  {operand : Operand} {type : ColumnType}

theorem isTyped_of_typed (h : typed column mode op operand type = .ok c)
    (accepted : ∀ v ∈ operand.values, type.accepts v = true) : c.IsTyped := by
  refine ⟨isBuilt_of_typed h, ?_⟩
  obtain ⟨hoperand, htype⟩ := operand_of_typed h
  rw [hoperand, htype]
  exact accepted

theorem IsTyped.withMode (h : c.IsTyped) (mode : SequenceMode) : (c.withMode mode).IsTyped :=
  ⟨h.built.withMode mode, h.accepted⟩

theorem isTyped_of_build {form : ColumnForm} (h : form.build = .ok c) : c.IsTyped := by
  rw [ColumnForm.build] at h
  split at h
  · obtain ⟨operand, hoperand, htyped⟩ := bind_eq_ok.1 h
    obtain ⟨v, hv, rfl⟩ := map_eq_ok.1 hoperand
    exact isTyped_of_typed htyped (List.forall_mem_singleton.2 (Value.accepts_of_ofNode hv))
  · obtain ⟨operand, hoperand, htyped⟩ := bind_eq_ok.1 h
    obtain ⟨values, hvalues, rfl⟩ := map_eq_ok.1 hoperand
    refine isTyped_of_typed htyped fun v hv => ?_
    obtain ⟨n, -, hn⟩ := exists_of_mapM hvalues v hv
    exact Value.accepts_of_ofNode hn
  · cases h
  · cases h

/-- Without a NaN among the operand values a condition is restored as it was. -/
theorem IsTyped.build_form (h : c.IsTyped) (numbers : ∀ v ∈ c.operand.values, v.isNaN = false) :
    c.form.build = .ok c := by
  have hreread := Operand.reread_eq_self fun v hv => ⟨h.accepted v hv, numbers v hv⟩
  have hnull := Operand.isNull_of_matcher (isBuilt_iff.1 h.built).2
  rw [ColumnCondition.build_form hnull, hreread]
  exact h.built

end ColumnCondition

section Sameness

theorem beq_self_of_forall {α : Type} [BEq α] {xs : List α} (h : ∀ x ∈ xs, (x == x) = true) :
    (xs == xs) = true := by
  induction xs with
  | nil => rfl
  | cons x xs ih =>
    obtain ⟨hx, hxs⟩ := List.forall_mem_cons.1 h
    rw [List.cons_beq_cons, hx, ih hxs, Bool.and_self]

theorem Binary.beq_self {f : Format} {x : Binary f} (h : x.isNaN = false) : (x == x) = true :=
  beq_iff.2 ⟨h, h, rfl⟩

theorem Value.beq_self {v : Value} (h : v.isNaN = false) : (v == v) = true := by
  cases v with
  | float x => exact Binary.beq_self h
  | double x => exact Binary.beq_self h
  | null a | string a | integer a | long a | boolean a | byte a | bytes a =>
    exact beq_self_eq_true a

theorem Operand.beq_self {operand : Operand} (h : ∀ v ∈ operand.values, v.isNaN = false) :
    (operand == operand) = true := by
  cases operand with
  | scalar v => exact Value.beq_self (h v (List.mem_singleton_self v))
  | set values => exact beq_self_of_forall fun v hv => Value.beq_self (h v hv)

theorem Operand.isNaN_of_real? {v : Value} {x : Double} (h : real? v = some x)
    (hnan : v.isNaN = false) : x.isNaN = false := by
  cases v with
  | null | string | bytes | boolean => cases h
  | integer | long | byte =>
    cases h
    exact Binary.ofRatio_isNaN _ _ _
  | float x =>
    cases h
    exact (Binary.convert_isNaN x).trans hnan
  | double x =>
    cases h
    exact hnan

theorem Operand.matcher_beq_self {operand : Operand} {type : ColumnType} {m : Matcher}
    (h : operand.matcher type = .ok m) (numbers : ∀ v ∈ operand.values, v.isNaN = false) :
    (m == m) = true := by
  rcases reads_of_matcher h with h | h | h | h
  · cases h with
    | @scalar v n => exact beq_self_eq_true n
    | @set values members => exact beq_self_eq_true members
  · cases h with
    | scalar hread =>
      exact Binary.beq_self (isNaN_of_real? hread (numbers _ (List.mem_singleton_self _)))
    | set hread =>
      refine beq_self_of_forall fun x hx => ?_
      obtain ⟨v, hv, hvx⟩ := exists_of_forall₂ hread.flip hx
      exact Binary.beq_self (isNaN_of_real? hvx (numbers v hv))
  · cases h with
    | @scalar v s => exact beq_self_eq_true s
    | @set values members => exact beq_self_eq_true members
  · cases h with
    | @scalar v b => exact beq_self_eq_true b
    | @set values members => exact beq_self_eq_true members

theorem ColumnCondition.IsTyped.beq_self {c : ColumnCondition} (h : c.IsTyped)
    (numbers : ∀ v ∈ c.operand.values, v.isNaN = false) : (c == c) = true := by
  have hmatcher := Operand.matcher_beq_self (isBuilt_iff.1 h.built).2 numbers
  have hoperand := Operand.beq_self numbers
  have hc : (c == c) = (c.column == c.column && (c.mode == c.mode && (c.op == c.op &&
    (c.operand == c.operand && (c.operandType == c.operandType && c.matcher == c.matcher))))) := rfl
  simp only [hc, beq_self_eq_true, hoperand, hmatcher, Bool.and_self]

end Sameness

end Tabular
