import Tabular.Condition.Column
import Tabular.Schema

namespace Tabular

inductive Condition where
  | column (c : ColumnCondition)
  | and (conditions : List Condition)
  | or (conditions : List Condition)
  | not (condition : Condition)
  | xor (first second : Condition)

/-- A condition whose columns have become positions in a row. -/
inductive BoundCondition where
  | column (c : ColumnCondition) (position : Nat)
  | and (conditions : List BoundCondition)
  | or (conditions : List BoundCondition)
  | not (condition : BoundCondition)
  | xor (first second : BoundCondition)

/-- Binds a column condition to the column it names, whose type it has to support. -/
def ColumnCondition.bind (c : ColumnCondition) (schema : Schema) :
    Except Error BoundCondition := do
  let (i, f) ← schema.requireColumn c.column
  if c.supports f.type then .ok (.column c i)
  else .error (.typeMismatch (.conditionColumn c.operandType c.text) (.column f.type c.column))

namespace Condition

mutual

/-- Sameness of conditions; floating point operands follow numeric equality. -/
def same : Condition → Condition → Bool
  | column c, column d => c == d
  | and cs, and ds => sameAll cs ds
  | or cs, or ds => sameAll cs ds
  | not c, not d => same c d
  | xor a b, xor c d => same a c && same b d
  | _, _ => false

def sameAll : List Condition → List Condition → Bool
  | [], [] => true
  | c :: cs, d :: ds => same c d && sameAll cs ds
  | _, _ => false

end

instance : BEq Condition where
  beq := same

mutual

/-- Resolves every column of a condition. -/
def bind (schema : Schema) : Condition → Except Error BoundCondition
  | column c => c.bind schema
  | and cs => do return .and (← bindAll schema cs)
  | or cs => do return .or (← bindAll schema cs)
  | not c => do return .not (← bind schema c)
  | xor a b => do return .xor (← bind schema a) (← bind schema b)

def bindAll (schema : Schema) : List Condition → Except Error (List BoundCondition)
  | [] => .ok []
  | c :: cs => do return (← bind schema c) :: (← bindAll schema cs)

end

mutual

def text : Condition → String
  | column c => c.text
  | and cs => "AND(" ++ ",".intercalate (texts cs) ++ ")"
  | or cs => "OR(" ++ ",".intercalate (texts cs) ++ ")"
  | not c => "NOT(" ++ text c ++ ")"
  | xor a b => "XOR(" ++ text a ++ "," ++ text b ++ ")"

def texts : List Condition → List String
  | [] => []
  | c :: cs => text c :: texts cs

end

end Condition

namespace BoundCondition

/-- Whether the value at a position satisfies a column condition. -/
def cell (c : ColumnCondition) (position : Nat) (row : Row) : Except Error Bool :=
  match row[position]? with
  | some v => c.evaluate v
  | none => .error (.schema (.conditionColumn row.length position c.column))

mutual

def evaluateRow (row : Row) : BoundCondition → Except Error Bool
  | column c i => cell c i row
  | and cs => everyRow row cs
  | or cs => someRow row cs
  | not c => do return !(← evaluateRow row c)
  | xor a b => do
    let x ← evaluateRow row a
    let y ← evaluateRow row b
    return x != y

def everyRow (row : Row) : List BoundCondition → Except Error Bool
  | [] => .ok true
  | c :: cs => do if ← evaluateRow row c then everyRow row cs else .ok false

def someRow (row : Row) : List BoundCondition → Except Error Bool
  | [] => .ok false
  | c :: cs => do if ← evaluateRow row c then .ok true else someRow row cs

end

/-- The answer of a condition on every step of a sequence. -/
def evaluateSteps (b : BoundCondition) (sequence : List Row) : Except Error (List Bool) :=
  sequence.mapM (evaluateRow · b)

/-- Whether every step satisfies a column condition; steps after a failing one are not read. -/
def everyStep (c : ColumnCondition) (position : Nat) : List Row → Except Error Bool
  | [] => .ok true
  | row :: rest => do if ← cell c position row then everyStep c position rest else .ok false

/-- Whether some step satisfies a column condition; steps after the first one are not read. -/
def someStep (c : ColumnCondition) (position : Nat) : List Row → Except Error Bool
  | [] => .ok false
  | row :: rest => do if ← cell c position row then .ok true else someStep c position rest

/-- Whether a sequence satisfies a column condition in its sequence mode. -/
def columnSequence (c : ColumnCondition) (position : Nat) (sequence : List Row) :
    Except Error Bool :=
  match c.mode with
  | .and => everyStep c position sequence
  | .or => someStep c position sequence
  | .none => .error (.unsupported (.sequenceEvaluation c.text))

mutual

/-- Whether a sequence satisfies a condition: the connectives combine the answers that the column
conditions give for the whole sequence. -/
def evaluateSequence (sequence : List Row) : BoundCondition → Except Error Bool
  | column c i => columnSequence c i sequence
  | and cs => everySequence sequence cs
  | or cs => someSequence sequence cs
  | not c => do return !(← evaluateSequence sequence c)
  | xor a b => do
    let x ← evaluateSequence sequence a
    let y ← evaluateSequence sequence b
    return x != y

def everySequence (sequence : List Row) : List BoundCondition → Except Error Bool
  | [] => .ok true
  | c :: cs => do if ← evaluateSequence sequence c then everySequence sequence cs else .ok false

def someSequence (sequence : List Row) : List BoundCondition → Except Error Bool
  | [] => .ok false
  | c :: cs => do if ← evaluateSequence sequence c then .ok true else someSequence sequence cs

end

end BoundCondition

end Tabular
