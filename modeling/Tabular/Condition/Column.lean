import Tabular.Value.Conversion

namespace Tabular

inductive Operand where
  | scalar (v : Value)
  | set (values : List Value)
deriving BEq

/-- The operand in the domain that column values are converted to. -/
inductive Matcher where
  | whole (n : Int64)
  | real (x : Double)
  | text (s : String)
  | boolean (b : Bool)
  | wholeSet (members : List Int64)
  | realSet (members : List Double)
  | textSet (members : List String)
  | booleanSet (members : List Bool)
deriving BEq

structure ColumnCondition where
  column : String
  mode : SequenceMode
  op : Operator
  operand : Operand
  operandType : ColumnType
  matcher : Matcher
deriving BEq

/-- An operator applied to two values in a given order; without an order only `notEqual` holds. -/
def Operator.holds (op : Operator) (order : Option Ordering) : Except Error Bool :=
  match op with
  | .lessThan => .ok (order == some .lt)
  | .lessOrEqual => .ok (order == some .lt || order == some .eq)
  | .greaterThan => .ok (order == some .gt)
  | .greaterOrEqual => .ok (order == some .gt || order == some .eq)
  | .equal => .ok (order == some .eq)
  | .notEqual => .ok (order != some .eq)
  | .inSet | .notInSet => .error (.unsupported (.scalarComparison op))

namespace Matcher

/-- The columns that an operand can be compared with. -/
def supports (m : Matcher) (t : ColumnType) : Bool :=
  match m with
  | whole _ | real _ | wholeSet _ | realSet _ => t.isNumeric || t == .boolean
  | text _ | textSet _ => t == .string || t == .categorical
  | boolean _ | booleanSet _ => t == .boolean

end Matcher

namespace Operand

def whole? : Value → Option Int64
  | .integer n => some n.toInt64
  | .long n => some n
  | .byte n => some n.toInt64
  | _ => none

/-- A floating point operand; any number but no boolean will do. -/
def real? (v : Value) : Option Double :=
  match v, v.numeric with
  | .boolean _, _ => none
  | _, some (.whole n) => some (.ofInt n.toInt)
  | _, some (.real x) => some x
  | _, none => none

def text? : Value → Option String
  | .string s => some s
  | _ => none

def boolean? : Value → Option Bool
  | .boolean b => some b
  | _ => none

/-- Reads every operand value; the first of another kind is refused. -/
def readAll {α : Type} (type : ColumnType) (read : Value → Option α) :
    List Value → Except ConditionFault (List α)
  | [] => .ok []
  | v :: rest =>
    match read v with
    | none => .error (.operandKind v type)
    | some a => (readAll type read rest).map (a :: ·)

def read {α : Type} (type : ColumnType) (one : Value → Option α) (scalar : α → Matcher)
    (set : List α → Matcher) : Operand → Except ConditionFault Matcher
  | .scalar v =>
    match one v with
    | some a => .ok (scalar a)
    | none => .error (.operandKind v type)
  | .set values => (readAll type one values).map set

def matcher (type : ColumnType) (operand : Operand) : Except ConditionFault Matcher :=
  match type with
  | .bytes => .error .bytesOperand
  | .integer | .long | .byte => operand.read type whole? .whole .wholeSet
  | .float | .double => operand.read type real? .real .realSet
  | .string | .categorical => operand.read type text? .text .textSet
  | .boolean => operand.read type boolean? .boolean .booleanSet

def values : Operand → List Value
  | .scalar v => [v]
  | .set values => values

def isSet : Operand → Bool
  | .scalar _ => false
  | .set _ => true

/-- The type shared by the values of an operand: a floating point value makes it a double. -/
def inferType (operand : Operand) : Except Error ColumnType :=
  match operand.values with
  | [] => .error .untypedSet
  | v :: rest =>
    let floating : Value → Bool
      | .float _ | .double _ => true
      | _ => false
    .ok (if (v :: rest).any floating then .double else v.type)

end Operand

namespace ColumnCondition

/-- The reasons to refuse an operator with an operand, before the operand is read. -/
def operatorFault (op : Operator) (operand : Operand) (type : ColumnType) :
    Option ConditionFault :=
  if op.takesSet && !operand.isSet then some (.needsSet op)
  else if !op.takesSet && operand.isSet then some (.needsScalar op)
  else if op.needsOrder && (type == .string || type == .categorical || type == .boolean) then
    some (.unordered op type)
  else none

/-- A condition whose operand has a declared type. -/
def typed (column : String) (mode : SequenceMode) (op : Operator) (operand : Operand)
    (type : ColumnType) : Except Error ColumnCondition :=
  match operatorFault op operand type with
  | some fault => .error (.condition column fault)
  | none =>
    match operand.matcher type with
    | .error fault => .error (.condition column fault)
    | .ok matcher => .ok ⟨column, mode, op, operand, type, matcher⟩

/-- A condition whose operand type is taken from the operand's values. -/
def infer (column : String) (mode : SequenceMode) (op : Operator) (operand : Operand) :
    Except Error ColumnCondition := do
  typed column mode op operand (← operand.inferType)

def ofValue (column : String) (op : Operator) (v : Value) : Except Error ColumnCondition :=
  typed column .or op (.scalar v) v.type

def ofValues (column : String) (op : Operator) (values : List Value) (type : ColumnType) :
    Except Error ColumnCondition :=
  typed column .or op (.set values) type

def integer (column : String) (op : Operator) (n : Int32) : Except Error ColumnCondition :=
  ofValue column op (.integer n)

def integerSet (column : String) (op : Operator) (members : List Int32) :
    Except Error ColumnCondition :=
  ofValues column op (members.map .integer) .integer

def long (column : String) (op : Operator) (n : Int64) : Except Error ColumnCondition :=
  ofValue column op (.long n)

/-- As `long`, with the sequence mode given at once. -/
def longWithMode (column : String) (mode : SequenceMode) (op : Operator) (n : Int64) :
    Except Error ColumnCondition :=
  typed column mode op (.scalar (.long n)) .long

def longSet (column : String) (op : Operator) (members : List Int64) :
    Except Error ColumnCondition :=
  ofValues column op (members.map .long) .long

def float (column : String) (op : Operator) (x : Single) : Except Error ColumnCondition :=
  ofValue column op (.float x)

def floatSet (column : String) (op : Operator) (members : List Single) :
    Except Error ColumnCondition :=
  ofValues column op (members.map .float) .float

def double (column : String) (op : Operator) (x : Double) : Except Error ColumnCondition :=
  ofValue column op (.double x)

def doubleSet (column : String) (op : Operator) (members : List Double) :
    Except Error ColumnCondition :=
  ofValues column op (members.map .double) .double

def string (column : String) (op : Operator) (s : String) : Except Error ColumnCondition :=
  ofValue column op (.string s)

def stringSet (column : String) (op : Operator) (members : List String) :
    Except Error ColumnCondition :=
  ofValues column op (members.map .string) .string

def categorical (column : String) (op : Operator) (s : String) : Except Error ColumnCondition :=
  typed column .or op (.scalar (.string s)) .categorical

def categoricalSet (column : String) (op : Operator) (members : List String) :
    Except Error ColumnCondition :=
  ofValues column op (members.map .string) .categorical

def boolean (column : String) (op : Operator) (b : Bool) : Except Error ColumnCondition :=
  ofValue column op (.boolean b)

def withMode (c : ColumnCondition) (mode : SequenceMode) : ColumnCondition :=
  { c with mode := mode }

def supports (c : ColumnCondition) (t : ColumnType) : Bool := c.matcher.supports t

/-- The answer of a set operator once it is known whether the value is a member. -/
def membership (c : ColumnCondition) (found : Bool) : Bool :=
  match c.op with
  | .notInSet => !found
  | _ => found

/-- A value of another kind than an exact operand needs. -/
def mismatch {α : Type} (c : ColumnCondition) (v : Value) : Except Error α :=
  .error (.typeMismatch (.ofType c.operandType) (.value v))

def textOf (c : ColumnCondition) (v : Value) : Except Error String :=
  match v with
  | .string s => .ok s
  | _ => c.mismatch v

def booleanOf (c : ColumnCondition) (v : Value) : Except Error Bool :=
  match v with
  | .boolean b => .ok b
  | _ => c.mismatch v

def evaluate (c : ColumnCondition) (v : Value) : Except Error Bool :=
  match c.matcher with
  | .whole n => do c.op.holds (some (compare (← v.toInt64).toInt n.toInt))
  | .real x => do c.op.holds ((← v.toDouble).compare? x)
  | .text s => do c.op.holds (some (compare (← c.textOf v) s))
  | .boolean b => do c.op.holds (some (compare (← c.booleanOf v) b))
  | .wholeSet members => do return c.membership (members.contains (← v.toInt64))
  | .realSet members => do
    let x ← v.toDouble
    return c.membership (members.any (· == x))
  | .textSet members => do return c.membership (members.contains (← c.textOf v))
  | .booleanSet members => do return c.membership (members.contains (← c.booleanOf v))

def kindName (c : ColumnCondition) : String :=
  match c.operandType with
  | .integer | .byte => "Integer"
  | .long => "Long"
  | .float => "Float"
  | .double => "Double"
  | .boolean => "Boolean"
  | .categorical => "Categorical"
  | .string | .bytes => "String"

def operandText : Operand → String
  | .scalar v => v.text
  | .set values => inspectList (values.map Value.text)

def text (c : ColumnCondition) : String :=
  c.kindName ++ "ColumnCondition(columnName=\"" ++ c.column ++ "\"," ++ c.op.name ++ "," ++
    operandText c.operand ++ ")"

end ColumnCondition

end Tabular
