import Tabular.Proofs.Binary.Exact
import Tabular.Proofs.Condition.Column

namespace Tabular

/-- How a value stands to an operand: its order to a scalar, or whether a set contains it. -/
inductive Standing where
  | order (order : Option Ordering)
  | member (found : Bool)

namespace Standing

/-- The answer of an operator that takes such an operand. -/
def answer : Standing → Operator → Bool
  | order o, op => op.holds o == .ok true
  | member found, op => if op = .notInSet then !found else found

def isMember : Standing → Bool
  | order _ => false
  | member _ => true

theorem holds_eq {op : Operator} (h : op.takesSet = false) (o : Option Ordering) :
    op.holds o = .ok ((order o).answer op) := by
  obtain ⟨b, hb⟩ := Operator.exists_holds h o
  rw [answer, hb]
  cases b with
  | true => rfl
  | false => rfl

theorem answer_notEqual {s : Standing} (h : s.isMember = false) :
    s.answer .notEqual = !s.answer .equal := by
  cases s with
  | member found => cases h
  | order o =>
    cases o with
    | none => rfl
    | some o => cases o <;> rfl

theorem answer_notInSet {s : Standing} (h : s.isMember = true) :
    s.answer .notInSet = !s.answer .inSet := by
  cases s with
  | member found => rfl
  | order o => cases h

theorem answer_some (o : Ordering) :
    [.lessThan, .equal, .greaterThan].countP (order (some o)).answer = 1 ∧
      (order (some o)).answer .lessOrEqual =
        ((order (some o)).answer .lessThan || (order (some o)).answer .equal) ∧
      (order (some o)).answer .greaterOrEqual =
        ((order (some o)).answer .greaterThan || (order (some o)).answer .equal) := by
  cases o with
  | lt => exact ⟨rfl, rfl, rfl⟩
  | eq => exact ⟨rfl, rfl, rfl⟩
  | gt => exact ⟨rfl, rfl, rfl⟩

theorem answer_none {op : Operator} (h : op.takesSet = false) :
    (order none).answer op = decide (op = .notEqual) := by
  cases op with
  | inSet | notInSet => cases h
  | _ => rfl

end Standing

/-- Converted as operands of a type ask, the value is NaN. Integer operands convert it to an
integer, which is no NaN. -/
def Value.ReadsNaN (type : ColumnType) (v : Value) : Prop :=
  type.isFloating = true ∧ ∃ x, v.toDouble = .ok x ∧ x.isNaN = true

namespace ColumnCondition

variable {column : String} {mode : SequenceMode} {operand : Operand} {type : ColumnType}
  {m : Matcher} {c : ColumnCondition} {v w : Value} {s : Standing}

/-- How a value stands to the operand of a condition, whatever the operator. -/
def standing (c : ColumnCondition) (v : Value) : Except Error Standing :=
  match c.matcher with
  | .whole n => v.toInt64.map fun k => .order (some (compare k.toInt n.toInt))
  | .real x => v.toDouble.map fun y => .order (y.compare? x)
  | .text s => (c.textOf v).map fun t => .order (some (compare t s))
  | .boolean b => (c.booleanOf v).map fun a => .order (some (compare a b))
  | .wholeSet members => v.toInt64.map fun k => .member (members.contains k)
  | .realSet members => v.toDouble.map fun y => .member (members.any (· == y))
  | .textSet members => (c.textOf v).map fun t => .member (members.contains t)
  | .booleanSet members => (c.booleanOf v).map fun a => .member (members.contains a)

theorem evaluate_eq_standing (h : c.op.takesSet = c.matcher.isSet) :
    c.evaluate v = (c.standing v).map fun s => s.answer c.op := by
  have hscalar {α : Type} (x : Except Error α) (o : α → Option Ordering)
      (hop : c.op.takesSet = false) : (do c.op.holds (o (← x))) =
        (x.map fun a => Standing.order (o a)).map fun s => s.answer c.op := by
    rw [map_map]
    exact bind_eq_map fun a => Standing.holds_eq hop (o a)
  have hset {α : Type} (x : Except Error α) (found : α → Bool) :
      (do return c.membership (found (← x))) =
        (x.map fun a => Standing.member (found a)).map fun s => s.answer c.op := by
    rw [map_map]
    apply bind_eq_map
    intro a
    rw [membership, Standing.answer]
    cases c.op <;> rfl
  rw [evaluate, standing]
  generalize c.matcher = m at h
  cases m with
  | whole n => exact hscalar v.toInt64 _ h
  | real x => exact hscalar v.toDouble _ h
  | text s => exact hscalar (c.textOf v) _ h
  | boolean b => exact hscalar (c.booleanOf v) _ h
  | wholeSet members => exact hset v.toInt64 _
  | realSet members => exact hset v.toDouble _
  | textSet members => exact hset (c.textOf v) _
  | booleanSet members => exact hset (c.booleanOf v) _

theorem isMember_of_standing (h : c.standing v = .ok s) : s.isMember = c.matcher.isSet := by
  rw [standing] at h
  generalize c.matcher = m at h
  cases m with
  | _ =>
    obtain ⟨_, -, rfl⟩ := map_eq_ok.1 h
    rfl

theorem exists_typed_iff (hm : operand.matcher type = .ok m) {op : Operator} :
    (∃ c, typed column mode op operand type = .ok c) ↔
      op.takesSet = operand.isSet ∧ (op.needsOrder = true → type.isNumeric = true) := by
  have hfault : operatorFault op operand type = none ↔
      op.takesSet = operand.isSet ∧ (op.needsOrder = true → type.isNumeric = true) := by
    have hexact :
        (type == .string || type == .categorical || type == .boolean) = !type.isNumeric := by
      cases type with
      | bytes => cases hm
      | _ => rfl
    rw [operatorFault, hexact]
    cases op.takesSet <;> cases operand.isSet <;> cases op.needsOrder <;> cases type.isNumeric <;>
      simp
  rw [← hfault]
  constructor
  · rintro ⟨c, hc⟩
    exact (typed_eq_ok.1 hc).1
  · intro hnone
    exact ⟨_, typed_eq_ok.2 ⟨hnone, m, hm, rfl⟩⟩

theorem toDouble_of_real? {x : Double} (h : Operand.real? w = some x) : w.toDouble = .ok x := by
  cases w <;> cases h <;> rfl

theorem scalar_of_matcher (hm : (Operand.scalar w).matcher type = .ok m)
    (htype : type.isNumeric = true) :
    type.isFloating = false ∧ (∃ n, m = .whole n) ∨
      type.isFloating = true ∧ ∃ x, m = .real x ∧ w.toDouble = .ok x := by
  cases type with
  | integer | long | byte =>
    have hread : (Operand.scalar w).Reads Operand.whole? .whole .wholeSet m :=
      Operand.read_eq_ok.1 hm
    obtain ⟨hn⟩ := hread
    exact .inl ⟨rfl, _, rfl⟩
  | float | double =>
    have hread : (Operand.scalar w).Reads Operand.real? .real .realSet m := Operand.read_eq_ok.1 hm
    obtain ⟨hx⟩ := hread
    exact .inr ⟨rfl, _, rfl, toDouble_of_real? hx⟩
  | _ => cases htype

/-- There is no order to a scalar of a numeric type exactly if a NaN is compared. -/
theorem order_eq_none_iff {op : Operator} {o : Option Ordering}
    (hm : (Operand.scalar w).matcher type = .ok m) (htype : type.isNumeric = true)
    (hs : standing ⟨column, mode, op, .scalar w, type, m⟩ v = .ok (.order o)) :
    o = none ↔ w.ReadsNaN type ∨ v.ReadsNaN type := by
  rcases scalar_of_matcher hm htype with ⟨hkind, n, rfl⟩ | ⟨hkind, x, rfl, hw⟩
  · obtain ⟨k, -, ho⟩ := map_eq_ok.1 hs
    cases ho
    simp [Value.ReadsNaN, hkind]
  · obtain ⟨y, hy, ho⟩ := map_eq_ok.1 hs
    cases ho
    simp [Value.ReadsNaN, hkind, hw, hy, Binary.compare?_eq_none_iff, or_comm]

/-- The operators valid for an operand fail alike or answer, negated ones oppositely; of less, equal
and greater one holds, or none next to a NaN. -/
theorem operators_agree (column : String) (mode : SequenceMode) (operand : Operand)
    (type : ColumnType) (v : Value) :
    (∀ m op, operand.matcher type = .ok m →
        ((∃ c, typed column mode op operand type = .ok c) ↔
          op.takesSet = operand.isSet ∧ (op.needsOrder = true → type.isNumeric = true))) ∧
      ∃ outcome : Except Error (Operator → Bool),
        (∀ op c, typed column mode op operand type = .ok c → c.evaluate v = outcome.map (· op)) ∧
        ∀ answer, outcome = .ok answer →
          (operand.isSet = false → answer .notEqual = !answer .equal) ∧
          (operand.isSet = true → answer .notInSet = !answer .inSet) ∧
          ∀ w, operand = .scalar w → type.isNumeric = true →
            (¬(w.ReadsNaN type ∨ v.ReadsNaN type) →
              [.lessThan, .equal, .greaterThan].countP answer = 1 ∧
              answer .lessOrEqual = (answer .lessThan || answer .equal) ∧
              answer .greaterOrEqual = (answer .greaterThan || answer .equal)) ∧
            (w.ReadsNaN type ∨ v.ReadsNaN type →
              ∀ op, op.takesSet = false → answer op = decide (op = .notEqual)) := by
  refine ⟨fun m op hm => exists_typed_iff hm, ?_⟩
  cases hm : operand.matcher type with
  | error fault =>
    refine ⟨.error .untypedSet, ?_, fun answer h => by cases h⟩
    intro op c hc
    obtain ⟨-, m, hm', -⟩ := typed_eq_ok.1 hc
    cases hm.symm.trans hm'
  | ok m =>
    have hset := (Operand.matcher_eq_ok hm).2
    refine ⟨(standing ⟨column, mode, .equal, operand, type, m⟩ v).map Standing.answer, ?_, ?_⟩
    · intro op c hc
      obtain ⟨hfault, m', hm', rfl⟩ := typed_eq_ok.1 hc
      cases hm.symm.trans hm'
      rw [evaluate_eq_standing ((operatorFault_eq_none hfault).trans hset.symm), map_map]
      rfl
    · intro answer h
      obtain ⟨s, hs, rfl⟩ := map_eq_ok.1 h
      have hmember : s.isMember = operand.isSet := (isMember_of_standing hs).trans hset
      rw [← hmember]
      refine ⟨Standing.answer_notEqual, Standing.answer_notInSet, ?_⟩
      rintro w rfl htype
      cases s with
      | member found => cases hmember
      | order o =>
        rw [← order_eq_none_iff hm htype hs]
        constructor
        · intro hsome
          obtain ⟨o, rfl⟩ := Option.ne_none_iff_exists'.1 hsome
          exact Standing.answer_some o
        · rintro rfl op hop
          exact Standing.answer_none hop

theorem operators_agree_of_nan :
    let nan : Value := .double .nan
    nan.ReadsNaN .double ∧ ¬nan.ReadsNaN .long ∧
      (∃ c d, double "x" .equal .nan = .ok c ∧ double "x" .notEqual .nan = .ok d ∧
        c.evaluate (.integer 3) = .ok false ∧ d.evaluate (.integer 3) = .ok true) ∧
      ∃ c d, long "x" .lessThan 5 = .ok c ∧ long "x" .lessOrEqual 5 = .ok d ∧
        c.evaluate nan = .ok true ∧ d.evaluate nan = .ok true := by
  intro nan
  have hfalse : evaluate ⟨"x", .or, .equal, .scalar nan, .double, .real .nan⟩ (.integer 3) =
      .ok false := by decide +kernel
  have htrue : evaluate ⟨"x", .or, .lessThan, .scalar (.long 5), .long, .whole 5⟩ nan =
      .ok true := by decide +kernel
  obtain ⟨-, outcome, hevaluate, hlaws⟩ :=
    operators_agree "x" .or (.scalar nan) .double (.integer 3)
  obtain ⟨-, outcome', hevaluate', hlaws'⟩ :=
    operators_agree "x" .or (.scalar (.long 5)) .long nan
  have hnan : nan.ReadsNaN .double := ⟨rfl, .nan, rfl, by decide⟩
  have hlong (v : Value) : ¬v.ReadsNaN .long := fun h => by cases h.1
  obtain ⟨answer, hanswer, -⟩ := map_eq_ok.1 ((hevaluate .equal _ rfl).symm.trans hfalse)
  obtain ⟨answer', hanswer', hless⟩ := map_eq_ok.1 ((hevaluate' .lessThan _ rfl).symm.trans htrue)
  have hnotEqual : answer .notEqual = true :=
    ((hlaws answer hanswer).2.2 nan rfl rfl).2 (.inl hnan) .notEqual rfl
  have hlessOrEqual : answer' .lessOrEqual = true := by
    have hlaw := ((hlaws' answer' hanswer').2.2 (.long 5) rfl rfl).1
      (not_or.2 ⟨hlong (.long 5), hlong nan⟩)
    rw [hlaw.2.1, hless, Bool.true_or]
  refine ⟨hnan, hlong nan, ⟨_, _, rfl, rfl, hfalse, ?_⟩, _, _, rfl, rfl, htrue, ?_⟩
  · exact (hevaluate .notEqual _ rfl).trans (map_eq_ok.2 ⟨answer, hanswer, hnotEqual⟩)
  · exact (hevaluate' .lessOrEqual _ rfl).trans (map_eq_ok.2 ⟨answer', hanswer', hlessOrEqual⟩)

end ColumnCondition

end Tabular
