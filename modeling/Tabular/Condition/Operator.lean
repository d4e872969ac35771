namespace Tabular

inductive Operator where
  | lessThan
  | lessOrEqual
  | greaterThan
  | greaterOrEqual
  | equal
  | notEqual
  | inSet
  | notInSet
deriving DecidableEq

namespace Operator

def all : List Operator :=
  [.lessThan, .lessOrEqual, .greaterThan, .greaterOrEqual, .equal, .notEqual, .inSet, .notInSet]

def name : Operator → String
  | lessThan => "LessThan"
  | lessOrEqual => "LessOrEqual"
  | greaterThan => "GreaterThan"
  | greaterOrEqual => "GreaterOrEqual"
  | equal => "Equal"
  | notEqual => "NotEqual"
  | inSet => "InSet"
  | notInSet => "NotInSet"

def ofName? (text : String) : Option Operator :=
  all.find? (·.name == text)

def takesSet : Operator → Bool
  | inSet | notInSet => true
  | _ => false

def needsOrder : Operator → Bool
  | lessThan | lessOrEqual | greaterThan | greaterOrEqual => true
  | _ => false

end Operator

/-- How a column condition holds of a whole sequence. -/
inductive SequenceMode where
  /-- On every step. -/
  | and
  /-- On some step. -/
  | or
  /-- Not defined. -/
  | none
deriving DecidableEq

namespace SequenceMode

def all : List SequenceMode := [.and, .or, .none]

def name : SequenceMode → String
  | and => "And"
  | or => "Or"
  | none => "NoSequenceMode"

def ofName? (text : String) : Option SequenceMode :=
  all.find? (·.name == text)

end SequenceMode

end Tabular
