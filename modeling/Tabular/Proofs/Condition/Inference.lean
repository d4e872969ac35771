import Tabular.Proofs.Condition.Membership

namespace Tabular

/-- The errors of a condition that is refused. -/
inductive Error.RefusesCondition : Error → Prop where
  | ofColumn (column : String) (fault : ConditionFault) : RefusesCondition (.condition column fault)
  | untypedSet : RefusesCondition .untypedSet

/-- Two sets that are compared in one way and have the same members. -/
inductive Matcher.SameMembers : Matcher → Matcher → Prop where
  | whole {ns ns' : List Int64} (h : ∀ n, n ∈ ns' ↔ n ∈ ns) :
      SameMembers (.wholeSet ns) (.wholeSet ns')
  | real {xs xs' : List Double} (h : ∀ x, x ∈ xs' ↔ x ∈ xs) :
      SameMembers (.realSet xs) (.realSet xs')
  | text {ss ss' : List String} (h : ∀ s, s ∈ ss' ↔ s ∈ ss) :
      SameMembers (.textSet ss) (.textSet ss')
  | boolean {bs bs' : List Bool} (h : ∀ b, b ∈ bs' ↔ b ∈ bs) :
      SameMembers (.booleanSet bs) (.booleanSet bs')

theorem contains_eq_of_mem_iff {α : Type} [BEq α] {as bs : List α} (h : ∀ a, a ∈ bs ↔ a ∈ as)
    (a : α) : bs.contains a = as.contains a := by
  rw [List.contains_eq_any_beq, List.contains_eq_any_beq, any_eq_of_mem_iff h]

theorem mem_filterMap_iff_of_mem_iff {α β : Type} {as bs : List α} (h : ∀ a, a ∈ bs ↔ a ∈ as)
    (f : α → Option β) (b : β) : b ∈ bs.filterMap f ↔ b ∈ as.filterMap f := by
  rw [List.mem_filterMap, List.mem_filterMap]
  exact exists_congr fun a => and_congr_left' (h a)

theorem forall₂_eq_some_iff {α β : Type} {f : α → Option β} {as : List α} {bs : List β} :
    List.Forall₂ (fun a b => f a = some b) as bs ↔
      (∀ a ∈ as, ∃ b, f a = some b) ∧ bs = as.filterMap f := by
  induction as generalizing bs with
  | nil => simp [List.forall₂_nil_left_iff]
  | cons a as ih =>
    rw [List.forall₂_cons_left_iff, List.forall_mem_cons]
    simp only [ih]
    constructor
    · rintro ⟨b, _, hb, ⟨hall, rfl⟩, rfl⟩
      exact ⟨⟨⟨b, hb⟩, hall⟩, (List.filterMap_cons_some hb).symm⟩
    · rintro ⟨⟨⟨b, hb⟩, hall⟩, rfl⟩
      exact ⟨b, _, hb, ⟨hall, rfl⟩, List.filterMap_cons_some hb⟩

namespace Operand

variable {α : Type} {type type' : ColumnType} {one : Value → Option α} {scalar : α → Matcher}
  {set : List α → Matcher} {values values' : List Value} {m : Matcher}

/-- Floating point values make the set that they are in one of doubles. -/
def isFloating : Value → Bool
  | .float _ | .double _ => true
  | _ => false

theorem inferType_cons (v : Value) (rest : List Value) :
    inferType (.set (v :: rest)) =
      .ok (if (v :: rest).any isFloating then .double else v.type) :=
  rfl

theorem read_set_eq_ok : read type one scalar set (.set values) = .ok m ↔
    (∀ v ∈ values, ∃ a, one v = some a) ∧ m = set (values.filterMap one) := by
  rw [read_eq_ok]
  constructor
  · rintro (_ | hread)
    obtain ⟨hall, rfl⟩ := forall₂_eq_some_iff.1 hread
    exact ⟨hall, rfl⟩
  · rintro ⟨hall, rfl⟩
    exact .set (forall₂_eq_some_iff.2 ⟨hall, rfl⟩)

theorem read_set_of_mem_iff (h : ∀ v, v ∈ values' ↔ v ∈ values)
    (hread : read type one scalar set (.set values) = .ok m) :
    read type' one scalar set (.set values') = .ok (set (values'.filterMap one)) := by
  obtain ⟨hall, -⟩ := read_set_eq_ok.1 hread
  exact read_set_eq_ok.2 ⟨fun v hv => hall v ((h v).1 hv), rfl⟩

/-- Each value that `one` reads is of a type whose operands are all read by `one`. -/
def ReadsOwnTypes (one : Value → Option α) (scalar : α → Matcher) (set : List α → Matcher) : Prop :=
  ∀ v a, one v = some a → ∀ operand, matcher v.type operand = operand.read v.type one scalar set

theorem readsOwnTypes_whole? : ReadsOwnTypes whole? .whole .wholeSet := by
  intro v n h
  cases v with
  | integer n | long n | byte n => exact fun _ => rfl
  | _ => cases h

theorem readsOwnTypes_text? : ReadsOwnTypes text? .text .textSet := by
  intro v s h
  cases v with
  | string s => exact fun _ => rfl
  | _ => cases h

theorem readsOwnTypes_boolean? : ReadsOwnTypes boolean? .boolean .booleanSet := by
  intro v b h
  cases v with
  | boolean b => exact fun _ => rfl
  | _ => cases h

theorem type_of_text? {v : Value} {s : String} (h : text? v = some s) : v.type = .string := by
  cases v with
  | string s => rfl
  | _ => cases h

theorem type_of_boolean? {v : Value} {b : Bool} (h : boolean? v = some b) : v.type = .boolean := by
  cases v with
  | boolean b => rfl
  | _ => cases h

theorem matcher_cons_of_mem_iff {v : Value} {rest : List Value}
    (hone : ReadsOwnTypes one scalar set)
    (h : ∀ w, w ∈ v :: rest ↔ w ∈ values) (hread : read type one scalar set (.set values) = .ok m) :
    (∃ a, one v = some a) ∧ m = set (values.filterMap one) ∧
      matcher v.type (.set (v :: rest)) = .ok (set ((v :: rest).filterMap one)) := by
  obtain ⟨hall, rfl⟩ := read_set_eq_ok.1 hread
  obtain ⟨a, ha⟩ := hall v ((h v).1 List.mem_cons_self)
  exact ⟨⟨a, ha⟩, rfl, (hone v a ha _).trans (read_set_of_mem_iff h hread)⟩

/-- The members of a set determine what it is compared as, up to the width of its integers. -/
theorem exists_matcher_of_mem_iff (h : ∀ v, v ∈ values' ↔ v ∈ values)
    (htype : inferType (.set values) = .ok type) (hm : matcher type (.set values) = .ok m) :
    ∃ type' m', inferType (.set values') = .ok type' ∧ matcher type' (.set values') = .ok m' ∧
      m.SameMembers m' ∧ (m.kind = .numeric ∨ type' = type) := by
  have hmem {α : Type} (one : Value → Option α) (a : α) :
      a ∈ values'.filterMap one ↔ a ∈ values.filterMap one := mem_filterMap_iff_of_mem_iff h one a
  obtain _ | ⟨v, rest⟩ := values
  · cases htype
  obtain _ | ⟨v', rest'⟩ := values'
  · exact absurd ((h v).2 List.mem_cons_self) List.not_mem_nil
  have hfloating : (v' :: rest').any isFloating = (v :: rest).any isFloating := any_eq_of_mem_iff h
  rw [inferType_cons, Except.ok.injEq] at htype
  subst htype
  rw [inferType_cons, hfloating]
  cases hany : (v :: rest).any isFloating with
  | true =>
    rw [hany] at hm
    have hread : read .double real? .real .realSet (.set (v :: rest)) = .ok m := hm
    obtain ⟨-, rfl⟩ := read_set_eq_ok.1 hread
    exact ⟨_, _, rfl, read_set_of_mem_iff h hread, .real (hmem real?), .inl rfl⟩
  | false =>
    rw [hany] at hm
    refine ⟨v'.type, ?_⟩
    cases v with
    | null t => cases isNull_of_matcher hm (.null t) List.mem_cons_self
    | float x | double x => cases hany
    | bytes b => cases hm
    | integer n | long n | byte n =>
      obtain ⟨-, rfl, hm'⟩ := matcher_cons_of_mem_iff readsOwnTypes_whole? h hm
      exact ⟨_, rfl, hm', .whole (hmem whole?), .inl rfl⟩
    | string s =>
      obtain ⟨⟨s', hs'⟩, rfl, hm'⟩ := matcher_cons_of_mem_iff readsOwnTypes_text? h hm
      exact ⟨_, rfl, hm', .text (hmem text?), .inr (type_of_text? hs')⟩
    | boolean b =>
      obtain ⟨⟨b', hb'⟩, rfl, hm'⟩ := matcher_cons_of_mem_iff readsOwnTypes_boolean? h hm
      exact ⟨_, rfl, hm', .boolean (hmem boolean?), .inr (type_of_boolean? hb')⟩

end Operand

theorem Matcher.SameMembers.supports_eq {m m' : Matcher} (h : m.SameMembers m')
    (type : ColumnType) : m'.supports type = m.supports type := by
  cases h with
  | _ => rfl

namespace ColumnCondition

variable {column : String} {mode : SequenceMode} {op : Operator} {values values' : List Value}
  {c c' : ColumnCondition} {e : Error}

theorem textOf_eq_of_operandType (h : c'.operandType = c.operandType) (v : Value) :
    c'.textOf v = c.textOf v := by
  rw [textOf.eq_def, textOf.eq_def, mismatch, mismatch, h]

theorem booleanOf_eq_of_operandType (h : c'.operandType = c.operandType) (v : Value) :
    c'.booleanOf v = c.booleanOf v := by
  rw [booleanOf.eq_def, booleanOf.eq_def, mismatch, mismatch, h]

/-- A value is found among the same members wherever they stand. Exact comparison reports the type
of the operand, so it has to be the same type. -/
theorem evaluate_of_sameMembers (hop : c'.op = c.op) (h : c.matcher.SameMembers c'.matcher)
    (htype : c.matcher.kind = .numeric ∨ c'.operandType = c.operandType) (v : Value) :
    c'.evaluate v = c.evaluate v := by
  rw [evaluate, evaluate]
  generalize c.matcher = m at h htype
  generalize c'.matcher = m' at h
  cases h with
  | whole h => simp only [membership, hop, contains_eq_of_mem_iff h]
  | real h => simp only [membership, hop, any_eq_of_mem_iff h]
  | text h =>
    obtain hkind | htype := htype
    · cases hkind
    · simp only [membership, hop, contains_eq_of_mem_iff h, textOf_eq_of_operandType htype]
  | boolean h =>
    obtain hkind | htype := htype
    · cases hkind
    · simp only [membership, hop, contains_eq_of_mem_iff h, booleanOf_eq_of_operandType htype]

theorem operatorFault_set {type : ColumnType} (h : operatorFault op (.set values) type = none)
    (values' : List Value) (type' : ColumnType) : operatorFault op (.set values') type' = none := by
  have hop : op.takesSet = true := operatorFault_eq_none h
  cases op with
  | inSet | notInSet => rfl
  | _ => cases hop

theorem infer_eq_ok : infer column mode op (.set values) = .ok c ↔
    ∃ type m, Operand.inferType (.set values) = .ok type ∧
      operatorFault op (.set values) type = none ∧ Operand.matcher type (.set values) = .ok m ∧
      c = ⟨column, mode, op, .set values, type, m⟩ := by
  rw [infer, bind_eq_ok]
  simp only [typed_eq_ok]
  constructor
  · rintro ⟨type, htype, hfault, m, hm, hc⟩
    exact ⟨type, m, htype, hfault, hm, hc⟩
  · rintro ⟨type, m, htype, hfault, hm, hc⟩
    exact ⟨type, htype, hfault, m, hm, hc⟩

theorem exists_infer_of_mem_iff (h : ∀ v, v ∈ values' ↔ v ∈ values)
    (hc : infer column mode op (.set values) = .ok c) :
    ∃ c', infer column mode op (.set values') = .ok c' ∧ (∀ v, c'.evaluate v = c.evaluate v) ∧
      ∀ type, c'.supports type = c.supports type := by
  obtain ⟨type, m, htype, hfault, hm, rfl⟩ := infer_eq_ok.1 hc
  obtain ⟨type', m', htype', hm', hmembers, hsame⟩ := Operand.exists_matcher_of_mem_iff h htype hm
  have hfault' := operatorFault_set hfault values' type'
  exact ⟨_, infer_eq_ok.2 ⟨type', m', htype', hfault', hm', rfl⟩,
    evaluate_of_sameMembers rfl hmembers hsame, hmembers.supports_eq⟩

theorem refusesCondition_of_typed {operand : Operand} {type : ColumnType}
    (h : typed column mode op operand type = .error e) : e.RefusesCondition := by
  rw [typed] at h
  split at h
  · cases h
    exact .ofColumn _ _
  · split at h
    · cases h
      exact .ofColumn _ _
    · cases h

theorem refusesCondition_of_infer {operand : Operand}
    (h : infer column mode op operand = .error e) : e.RefusesCondition := by
  obtain htype | ⟨type, -, htyped⟩ := bind_eq_error.1 h
  · rw [Operand.inferType] at htype
    split at htype
    · cases htype
      exact .untypedSet
    · cases htype
  · exact refusesCondition_of_typed htyped

/-- A condition on a set without a declared type depends neither on the order of the members nor on
how often they are given. -/
theorem infer_set_of_mem_iff (column : String) (mode : SequenceMode) (op : Operator)
    {values values' : List Value} (h : ∀ v, v ∈ values' ↔ v ∈ values) :
    (∃ c c', infer column mode op (.set values) = .ok c ∧
        infer column mode op (.set values') = .ok c' ∧ (∀ v, c'.evaluate v = c.evaluate v) ∧
        ∀ type, c'.supports type = c.supports type) ∨
      ∃ e e', infer column mode op (.set values) = .error e ∧
        infer column mode op (.set values') = .error e' ∧ e.RefusesCondition ∧
        e'.RefusesCondition := by
  cases hc : infer column mode op (.set values) with
  | ok c =>
    obtain ⟨c', hc', hsame⟩ := exists_infer_of_mem_iff h hc
    exact .inl ⟨c, c', rfl, hc', hsame⟩
  | error e =>
    cases hc' : infer column mode op (.set values') with
    | ok c' =>
      obtain ⟨c, hc'', -⟩ := exists_infer_of_mem_iff (fun v => (h v).symm) hc'
      cases hc.symm.trans hc''
    | error e' =>
      exact .inr ⟨e, e', rfl, rfl, refusesCondition_of_infer hc, refusesCondition_of_infer hc'⟩

theorem infer_set_of_mem_iff_of_repeated :
    let values : List Value := [.long 300, .byte 1]
    let values' : List Value := [.byte 1, .long 300, .byte 1]
    ∃ c c', infer "x" .or .notInSet (.set values) = .ok c ∧
      infer "x" .or .notInSet (.set values') = .ok c' ∧ c.operandType = .long ∧
      c'.operandType = .byte ∧ c'.evaluate (.integer 300) = .ok false ∧
      c'.evaluate (.boolean false) = .ok true ∧
      c'.evaluate (.string "1") = .error (.notNumeric (.string "1")) := by
  intro values values'
  have hmem (v : Value) : v ∈ values' ↔ v ∈ values := by
    simp only [values, values', List.mem_cons, List.not_mem_nil, or_false]
    exact ⟨fun h => h.elim .inr id, fun h => .inr h⟩
  have hvalues : infer "x" .or .notInSet (.set values) = .ok ⟨"x", .or, .notInSet, .set values,
      .long, .wholeSet [300, 1]⟩ := rfl
  have hvalues' : infer "x" .or .notInSet (.set values') = .ok ⟨"x", .or, .notInSet, .set values',
      .byte, .wholeSet [1, 300, 1]⟩ := rfl
  obtain ⟨c, c', hc, hc', hevaluate, -⟩ | ⟨e, -, he, -⟩ :=
    infer_set_of_mem_iff "x" .or .notInSet hmem
  · cases hvalues.symm.trans hc
    cases hvalues'.symm.trans hc'
    refine ⟨_, _, hvalues, hvalues', rfl, rfl, ?_, ?_, ?_⟩
    · exact (hevaluate _).trans (by decide)
    · exact (hevaluate _).trans (by decide)
    · exact hevaluate _
  · cases hvalues.symm.trans he

end ColumnCondition

end Tabular
