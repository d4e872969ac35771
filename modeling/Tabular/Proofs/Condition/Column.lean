import Tabular.Condition.Column
import Tabular.Proofs.Except
import Tabular.Proofs.Value.Stored

namespace Tabular

/-- What an operand is compared as. -/
inductive OperandKind where
  | numeric
  | text
  | boolean
deriving DecidableEq

/-- The types of the columns that operands of a kind are compared with. -/
def OperandKind.columns : OperandKind → List ColumnType
  | numeric => [.integer, .long, .float, .double, .byte, .boolean]
  | text => [.string, .categorical]
  | boolean => [.boolean]

/-- The kind of the operands of a type; byte arrays are not compared. -/
def ColumnType.operandKind? : ColumnType → Option OperandKind
  | .integer | .long | .float | .double | .byte => some .numeric
  | .string | .categorical => some .text
  | .boolean => some .boolean
  | .bytes => none

namespace Matcher

def kind : Matcher → OperandKind
  | whole _ | real _ | wholeSet _ | realSet _ => .numeric
  | text _ | textSet _ => .text
  | boolean _ | booleanSet _ => .boolean

def isSet : Matcher → Bool
  | whole _ | real _ | text _ | boolean _ => false
  | wholeSet _ | realSet _ | textSet _ | booleanSet _ => true

theorem supports_iff (m : Matcher) (t : ColumnType) :
    m.supports t = true ↔ t ∈ m.kind.columns := by
  cases m <;> simp only [supports, kind] <;> cases t <;> decide

end Matcher

namespace Operand

variable {α : Type} {type : ColumnType} {one : Value → Option α} {scalar : α → Matcher}
  {set : List α → Matcher} {operand : Operand} {m : Matcher}

/-- What reading the values of an operand one by one makes of it. -/
inductive Reads (one : Value → Option α) (scalar : α → Matcher) (set : List α → Matcher) :
    Operand → Matcher → Prop where
  | scalar {v : Value} {a : α} (h : one v = some a) : Reads one scalar set (.scalar v) (scalar a)
  | set {values : List Value} {members : List α}
      (h : List.Forall₂ (fun v a => one v = some a) values members) :
      Reads one scalar set (.set values) (set members)

theorem readAll_eq_ok {values : List Value} {members : List α} :
    readAll type one values = .ok members ↔
      List.Forall₂ (fun v a => one v = some a) values members := by
  induction values generalizing members with
  | nil =>
    rw [readAll, List.forall₂_nil_left_iff, Except.ok.injEq]
    exact eq_comm
  | cons v values ih =>
    rw [readAll, List.forall₂_cons_left_iff]
    cases hv : one v with
    | none => simp
    | some a =>
      rw [map_eq_ok]
      constructor
      · rintro ⟨rest, hrest, rfl⟩
        exact ⟨a, rest, rfl, ih.1 hrest, rfl⟩
      · rintro ⟨_, rest, ha, hrest, rfl⟩
        cases ha
        exact ⟨rest, ih.2 hrest, rfl⟩

theorem read_eq_ok : operand.read type one scalar set = .ok m ↔ operand.Reads one scalar set m := by
  cases operand with
  | scalar v =>
    rw [read]
    constructor
    · intro h
      split at h
      · next a ha =>
        cases h
        exact .scalar ha
      · cases h
    · rintro ⟨ha⟩
      rw [ha]
  | set values =>
    rw [read, map_eq_ok]
    constructor
    · rintro ⟨members, h, rfl⟩
      exact .set (readAll_eq_ok.1 h)
    · rintro (_ | h)
      exact ⟨_, readAll_eq_ok.2 h, rfl⟩

theorem matcher_eq_ok (h : operand.matcher type = .ok m) :
    type.operandKind? = some m.kind ∧ m.isSet = operand.isSet := by
  rw [matcher.eq_def] at h
  split at h
  · cases h
  all_goals
    rcases read_eq_ok.1 h with _ | _
    all_goals exact ⟨rfl, rfl⟩

theorem matcher_eq_read (type : ColumnType) :
    (∀ operand, matcher type operand = .error .bytesOperand) ∨
      (∀ operand, matcher type operand = operand.read type whole? .whole .wholeSet) ∨
      (∀ operand, matcher type operand = operand.read type real? .real .realSet) ∨
      (∀ operand, matcher type operand = operand.read type text? .text .textSet) ∨
      ∀ operand, matcher type operand = operand.read type boolean? .boolean .booleanSet := by
  cases type with
  | bytes => exact .inl fun _ => rfl
  | integer | long | byte => exact .inr (.inl fun _ => rfl)
  | float | double => exact .inr (.inr (.inl fun _ => rfl))
  | string | categorical => exact .inr (.inr (.inr (.inl fun _ => rfl)))
  | boolean => exact .inr (.inr (.inr (.inr fun _ => rfl)))

theorem reads_of_matcher (h : operand.matcher type = .ok m) :
    operand.Reads whole? .whole .wholeSet m ∨ operand.Reads real? .real .realSet m ∨
      operand.Reads text? .text .textSet m ∨ operand.Reads boolean? .boolean .booleanSet m := by
  rcases matcher_eq_read type with hread | hread | hread | hread | hread <;> rw [hread] at h
  · cases h
  · exact .inl (read_eq_ok.1 h)
  · exact .inr (.inl (read_eq_ok.1 h))
  · exact .inr (.inr (.inl (read_eq_ok.1 h)))
  · exact .inr (.inr (.inr (read_eq_ok.1 h)))

theorem Reads.exists_of_mem (h : operand.Reads one scalar set m) {v : Value}
    (hv : v ∈ operand.values) : ∃ a, one v = some a := by
  cases h with
  | scalar h =>
    rw [List.mem_singleton.1 hv]
    exact ⟨_, h⟩
  | set h =>
    obtain ⟨a, -, ha⟩ := exists_of_forall₂ h hv
    exact ⟨a, ha⟩

theorem isNull_of_matcher (h : operand.matcher type = .ok m) :
    ∀ v ∈ operand.values, v.isNull = false := by
  intro v hv
  rcases reads_of_matcher h with h | h | h | h
  all_goals
    obtain ⟨a, ha⟩ := h.exists_of_mem hv
    cases v with
    | null t => cases ha
    | _ => rfl

end Operand

namespace ColumnType.Stores

variable {type : ColumnType} {v : Value}

theorem exists_numeric (h : type.Stores v)
    (htype : type ∈ OperandKind.numeric.columns) : ∃ x, v.numeric = some x := by
  cases h with
  | string | categorical | bytes => exact absurd htype (by decide)
  | _ => exact ⟨_, rfl⟩

theorem exists_text (h : type.Stores v) (htype : type ∈ OperandKind.text.columns) :
    ∃ s, v = .string s := by
  cases h with
  | string s | categorical s => exact ⟨s, rfl⟩
  | _ => exact absurd htype (by decide)

theorem exists_boolean (h : type.Stores v)
    (htype : type ∈ OperandKind.boolean.columns) : ∃ b, v = .boolean b := by
  cases h with
  | boolean b => exact ⟨b, rfl⟩
  | _ => exact absurd htype (by decide)

end ColumnType.Stores

namespace Value

variable {v : Value}

theorem exists_toInt64 (h : ∃ x, v.numeric = some x) : ∃ n, v.toInt64 = .ok n := by
  obtain ⟨x, hx⟩ := h
  rw [toInt64, hx]
  cases x with
  | whole n => exact ⟨n, rfl⟩
  | real x => exact ⟨x.toInt64, rfl⟩

theorem exists_toDouble (h : ∃ x, v.numeric = some x) : ∃ x, v.toDouble = .ok x := by
  obtain ⟨x, hx⟩ := h
  rw [toDouble, hx]
  cases x with
  | whole n => exact ⟨.ofInt n.toInt, rfl⟩
  | real x => exact ⟨x, rfl⟩

end Value

theorem Operator.exists_holds {op : Operator} (h : op.takesSet = false)
    (order : Option Ordering) : ∃ b, op.holds order = .ok b := by
  cases op with
  | inSet | notInSet => cases h
  | _ => exact ⟨_, rfl⟩

namespace ColumnCondition

variable {c : ColumnCondition} {type : ColumnType} {v : Value}

/-- The condition is what the constructors make of its parts. -/
def IsBuilt (c : ColumnCondition) : Prop :=
  typed c.column c.mode c.op c.operand c.operandType = .ok c

theorem operatorFault_eq_none {op : Operator} {operand : Operand}
    (h : operatorFault op operand type = none) : op.takesSet = operand.isSet := by
  rw [operatorFault] at h
  cases hop : op.takesSet <;> cases hset : operand.isSet <;> simp [hop, hset] at h ⊢

theorem typed_eq_ok {column : String} {mode : SequenceMode} {op : Operator} {operand : Operand} :
    typed column mode op operand type = .ok c ↔ operatorFault op operand type = none ∧
      ∃ m, operand.matcher type = .ok m ∧ c = ⟨column, mode, op, operand, type, m⟩ := by
  rw [typed]
  split
  · next fault hfault => simp [hfault]
  · next hfault =>
    split
    · next fault hmatcher => simp [hmatcher]
    · next m hmatcher => simp [hfault, hmatcher, eq_comm]

theorem isBuilt_iff : c.IsBuilt ↔
    operatorFault c.op c.operand c.operandType = none ∧
      c.operand.matcher c.operandType = .ok c.matcher := by
  rw [IsBuilt, typed_eq_ok]
  constructor
  · rintro ⟨hfault, m, hmatcher, hc⟩
    rw [congrArg matcher hc]
    exact ⟨hfault, hmatcher⟩
  · rintro ⟨hfault, hmatcher⟩
    exact ⟨hfault, c.matcher, hmatcher, rfl⟩

theorem isBuilt_of_typed {column : String} {mode : SequenceMode} {op : Operator}
    {operand : Operand} (h : typed column mode op operand type = .ok c) : c.IsBuilt := by
  obtain ⟨-, m, -, rfl⟩ := typed_eq_ok.1 h
  exact h

theorem operand_of_typed {column : String} {mode : SequenceMode} {op : Operator}
    {operand : Operand} (h : typed column mode op operand type = .ok c) :
    c.operand = operand ∧ c.operandType = type := by
  obtain ⟨-, m, -, rfl⟩ := typed_eq_ok.1 h
  exact ⟨rfl, rfl⟩

theorem column_of_typed {column : String} {mode : SequenceMode} {op : Operator} {operand : Operand}
    (h : typed column mode op operand type = .ok c) : c.column = column := by
  obtain ⟨-, m, -, rfl⟩ := typed_eq_ok.1 h
  rfl

/-- The constructor that takes the type from the operand builds conditions as the others do. -/
theorem isBuilt_of_infer {column : String} {mode : SequenceMode} {op : Operator}
    {operand : Operand} (h : infer column mode op operand = .ok c) : c.IsBuilt := by
  obtain ⟨type, -, htyped⟩ := bind_eq_ok.1 h
  exact isBuilt_of_typed htyped

theorem IsBuilt.withMode (h : c.IsBuilt) (mode : SequenceMode) : (c.withMode mode).IsBuilt := by
  have hparts := isBuilt_iff.1 h
  exact isBuilt_iff.2 hparts

theorem IsBuilt.operandKind? (h : c.IsBuilt) :
    c.operandType.operandKind? = some c.matcher.kind :=
  (Operand.matcher_eq_ok (isBuilt_iff.1 h).2).1

theorem IsBuilt.takesSet (h : c.IsBuilt) : c.op.takesSet = c.matcher.isSet := by
  obtain ⟨hfault, hmatcher⟩ := isBuilt_iff.1 h
  rw [operatorFault_eq_none hfault, (Operand.matcher_eq_ok hmatcher).2]

/-- A value that a supported column holds is compared without an error. -/
theorem IsBuilt.exists_evaluate (h : c.IsBuilt) (htype : c.supports type = true)
    (hv : type.Stores v) : ∃ b, c.evaluate v = .ok b := by
  have hcolumns := (Matcher.supports_iff c.matcher type).1 htype
  have hset := h.takesSet
  rw [evaluate]
  generalize c.matcher = m at hcolumns hset
  cases m with
  | whole n =>
    obtain ⟨k, hk⟩ := Value.exists_toInt64 (hv.exists_numeric hcolumns)
    rw [hk]
    exact Operator.exists_holds hset _
  | real x =>
    obtain ⟨y, hy⟩ := Value.exists_toDouble (hv.exists_numeric hcolumns)
    rw [hy]
    exact Operator.exists_holds hset _
  | text s =>
    obtain ⟨t, rfl⟩ := hv.exists_text hcolumns
    exact Operator.exists_holds hset _
  | boolean b =>
    obtain ⟨b', rfl⟩ := hv.exists_boolean hcolumns
    exact Operator.exists_holds hset _
  | wholeSet members =>
    obtain ⟨k, hk⟩ := Value.exists_toInt64 (hv.exists_numeric hcolumns)
    exact ⟨_, congrArg (· >>= _) hk⟩
  | realSet members =>
    obtain ⟨y, hy⟩ := Value.exists_toDouble (hv.exists_numeric hcolumns)
    exact ⟨_, congrArg (· >>= _) hy⟩
  | textSet members =>
    obtain ⟨t, rfl⟩ := hv.exists_text hcolumns
    exact ⟨_, rfl⟩
  | booleanSet members =>
    obtain ⟨b, rfl⟩ := hv.exists_boolean hcolumns
    exact ⟨_, rfl⟩

end ColumnCondition

end Tabular
