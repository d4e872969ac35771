import Tabular.Condition.Basic
import Tabular.Definition.Cell
import Tabular.Definition.Parts

namespace Tabular

/-- A column condition whose operand has not been read yet. -/
structure ColumnForm where
  column : String
  op : Operator
  type : ColumnType
  value : Option Node
  set : Option (List Node)
  mode : SequenceMode

/-- A condition whose operands have not been read yet. -/
inductive ConditionForm where
  | column (c : ColumnForm)
  | and (conditions : List ConditionForm)
  | or (conditions : List ConditionForm)
  | not (condition : ConditionForm)
  | xor (first second : ConditionForm)

namespace ColumnForm

/-- An optional part: an item that is null counts as absent. -/
def present? : Option Node → Option Node
  | some .null => none
  | other => other

def ofParts? (tagged : Bool) (parts : Parts Node) : Option ColumnForm := do
  match ← parts.select ["columnName", "op", "type", "value", "set", "sequenceConditionMode"] with
  | [some column, some op, some type, value, set, mode] =>
    let set ← match present? set with
      | none => some none
      | some items => items.list?.map some
    let mode ← match mode with
      | none => some .or
      | some mode => mode.choice? tagged SequenceMode.ofName?
    return {
      column := ← column.text?
      op := ← op.choice? tagged Operator.ofName?
      type := ← type.choice? tagged ColumnType.ofTag?
      value := present? value
      set := set
      mode := mode }
  | _ => none

/-- Reads the operand and builds the condition. -/
def build (c : ColumnForm) : Except Error ColumnCondition := do
  let operand : Operand ← match c.value, c.set with
    | some n, none => (Value.ofNode c.type n).map .scalar
    | none, some items => (items.mapM (Value.ofNode c.type)).map .set
    | some _, some _ => .error (.definition (.twoOperands c.column))
    | none, none => .error (.definition (.noOperand c.column))
  ColumnCondition.typed c.column c.mode c.op operand c.type

end ColumnForm

namespace ColumnCondition

def toDefinition (c : ColumnCondition) : Definition :=
  [("columnName", .text c.column), ("op", .text c.op.name),
    ("sequenceConditionMode", .text c.mode.name)] ++
  match c.operand with
  | .scalar v => [("type", .text c.operandType.tag), ("value", v.toNode)]
  | .set values =>
    [("set", .list (values.map Value.toNode)), ("type", .text c.operandType.tag)]

def ofDefinition (d : Definition) : Except Error ColumnCondition :=
  match ColumnForm.ofParts? false (.named d) with
  | some form => form.build
  | none => .error .malformedDefinition

end ColumnCondition

namespace Condition

mutual

def toDefinition : Condition → Definition
  | column c => c.toDefinition.insert "condition" (.text "Column")
  | and cs => [("condition", .text "And"), ("conditions", .list (toNodes cs))]
  | or cs => [("condition", .text "Or"), ("conditions", .list (toNodes cs))]
  | not c => [("condition", .text "Not"), ("inner", .object (toDefinition c))]
  | xor a b =>
    [("condition", .text "Xor"), ("first", .object (toDefinition a)),
      ("second", .object (toDefinition b))]

def toNodes : List Condition → List Node
  | [] => []
  | c :: cs => .object (toDefinition c) :: toNodes cs

end

end Condition

/-- An item with what it means as a condition and as a list of conditions. -/
structure ReadNode where
  node : Node
  condition : Option ConditionForm
  conditions : Option (List ConditionForm)

namespace ConditionForm

/-- The names of the alternatives, in the order of their numbers. -/
def alternatives : List String := ["Column", "And", "Or", "Not", "Xor"]

/-- The alternative that a tag names; inside a definition its number will do. -/
def alternative? : Node → Option String
  | .text s => some s
  | .whole n => if 0 ≤ n then alternatives[n.toNat]? else none
  | _ => none

/-- The parts of a record as plain items. -/
def plain : Parts ReadNode → Parts Node
  | .named fields => .named (fields.map fun p => (p.1, p.2.node))
  | .ordered items => .ordered (items.map ReadNode.node)

def ofParts? (parts : Parts ReadNode) : Option ConditionForm := do
  let (tag, rest) ← parts.splitTag "condition"
  match ← alternative? tag.node with
  | "Column" => (ColumnForm.ofParts? true (plain rest)).map column
  | "And" => match ← rest.select ["conditions"] with
    | [some list] => list.conditions.map and
    | _ => none
  | "Or" => match ← rest.select ["conditions"] with
    | [some list] => list.conditions.map or
    | _ => none
  | "Not" => match ← rest.select ["inner"] with
    | [some inner] => inner.condition.map not
    | _ => none
  | "Xor" => match ← rest.select ["first", "second"] with
    | [some first, some second] => return .xor (← first.condition) (← second.condition)
    | _ => none
  | _ => none

mutual

/-- Reads an item after its parts. -/
def read : Node → ReadNode
  | .object fields => ⟨.object fields, ofParts? (.named (readFields fields)), none⟩
  | .list items =>
    let parts := readItems items
    ⟨.list items, ofParts? (.ordered parts), parts.mapM ReadNode.condition⟩
  | n => ⟨n, none, none⟩

def readItems : List Node → List ReadNode
  | [] => []
  | n :: rest => read n :: readItems rest

def readFields : List (String × Node) → List (String × ReadNode)
  | [] => []
  | (name, n) :: rest => (name, read n) :: readFields rest

end

/-- The form of a whole definition; its own tag has to be a name. -/
def ofDefinition? (d : Definition) : Option ConditionForm :=
  match d.lookup "condition" with
  | some (.text _) => ofParts? (.named (readFields d))
  | _ => none

mutual

/-- Builds a condition from left to right; the first refused operand is reported. -/
def build : ConditionForm → Except Error Condition
  | column c => c.build.map .column
  | and cs => do return .and (← buildAll cs)
  | or cs => do return .or (← buildAll cs)
  | not c => do return .not (← build c)
  | xor a b => do return .xor (← build a) (← build b)

def buildAll : List ConditionForm → Except Error (List Condition)
  | [] => .ok []
  | c :: cs => do return (← build c) :: (← buildAll cs)

end

end ConditionForm

def Condition.ofDefinition (d : Definition) : Except Error Condition :=
  match ConditionForm.ofDefinition? d with
  | some form => form.build
  | none => .error .malformedDefinition

end Tabular
