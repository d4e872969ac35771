import Tabular.Definition.Parts
import Tabular.Schema

namespace Tabular

namespace Field

def toNode (f : Field) : Node :=
  .object [("name", .text f.name), ("type", .text f.type.tag)]

def ofNode? (n : Node) : Option Field := do
  match ← (← n.parts?).select ["name", "type"] with
  | [some name, some type] =>
    return ⟨← name.text?, ← type.choice? false ColumnType.ofTag?⟩
  | _ => none

end Field

namespace Schema

def toDefinition (s : Schema) : Definition :=
  [("columns", .list (s.fields.map Field.toNode))]

def ofParts (parts : Parts Node) : Except Error Schema :=
  let fields : Option (List Field) := do
    match ← parts.select ["columns"] with
    | [some columns] => (← columns.list?).mapM Field.ofNode?
    | _ => none
  match fields with
  | some fields => (check fields).mapError .schemaDefinition
  | none => .error .malformedDefinition

def ofDefinition (d : Definition) : Except Error Schema := ofParts (.named d)

def ofNode (n : Node) : Except Error Schema :=
  match n.parts? with
  | some parts => ofParts parts
  | none => .error .malformedDefinition

end Schema

end Tabular
