import Tabular.Definition.Schema
import Tabular.Join.Basic

namespace Tabular.Join

def toDefinition (j : Join) : Definition :=
  [("joinColumnsLeft", .list (j.leftKeyColumns.map .text)),
    ("joinColumnsRight", .list (j.rightKeyColumns.map .text)),
    ("joinType", .text j.type.name),
    ("leftSchema", .object j.left.toDefinition),
    ("rightSchema", .object j.right.toDefinition)]

/-- A field of a definition, if it is there; it has to have the right shape then. -/
def readField {α : Type} (d : Definition) (name : String) (read : Node → Except Error α) :
    Except Error (Option α) :=
  match d.lookup name with
  | some n => (read n).map some
  | none => .ok none

/-- An item that has to have a given shape. -/
def shaped {α : Type} (read : Node → Option α) (n : Node) : Except Error α :=
  match read n with
  | some a => .ok a
  | none => .error .malformedDefinition

/-- The fields are read in the order of their names, and only then looked for if absent. -/
def ofDefinition (d : Definition) : Except Error Join := do
  let leftColumns ← readField d "joinColumnsLeft" (shaped Node.texts?)
  let rightColumns ← readField d "joinColumnsRight" (shaped Node.texts?)
  let type ← readField d "joinType" (shaped (Node.choice? false JoinType.ofName?))
  let left ← readField d "leftSchema" Schema.ofNode
  let right ← readField d "rightSchema" Schema.ofNode
  match type, left, right, leftColumns, rightColumns with
  | some type, some left, some right, some leftColumns, some rightColumns =>
    onColumns type left right leftColumns rightColumns
  | _, _, _, _, _ => throw .malformedDefinition

end Tabular.Join
