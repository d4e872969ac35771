import Tabular.Definition.Schema
import Tabular.Proofs.Definition.Column
import Tabular.Proofs.Schema

namespace Tabular

namespace Schema

theorem ofNode?_toNode (f : Field) : Field.ofNode? f.toNode = some f := by
  have hselect : Parts.select ["name", "type"]
      (.named [("name", Node.text f.name), ("type", .text f.type.tag)]) =
      some [some (.text f.name), some (.text f.type.tag)] := rfl
  simp [Field.ofNode?, Field.toNode, Node.parts?, hselect, Node.text?, Node.choice?,
    ColumnType.ofTag?_tag]

theorem ofDefinition_toDefinition_eq (s : Schema) : ofDefinition s.toDefinition = .ok s := by
  have hselect : Parts.select ["columns"] (.named s.toDefinition) =
      some [some (.list (s.fields.map Field.toNode))] := rfl
  have hfields : (s.fields.map Field.toNode).mapM Field.ofNode? = some (s.fields.map id) :=
    mapM_map_eq_pure fun f _ => ofNode?_toNode f
  rw [List.map_id] at hfields
  rw [ofDefinition, ofParts, hselect]
  simp only [Option.bind_eq_bind, Option.bind_some, Node.list?, hfields]
  rw [check_fields]
  rfl

theorem ofNode_toDefinition (s : Schema) : ofNode (.object s.toDefinition) = .ok s :=
  s.ofDefinition_toDefinition_eq

end Schema

end Tabular
