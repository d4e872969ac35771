import Tabular.Definition.Node

namespace Tabular

inductive Parts (α : Type) where
  | named (fields : List (String × α))
  | ordered (items : List α)

namespace Parts

variable {α : Type}

/-- The parts for the fields of a record, unless there are more parts than fields. -/
def select (names : List String) : Parts α → Option (List (Option α))
  | named fields => some (names.map fun name => fields.lookup name)
  | ordered items =>
    if items.length ≤ names.length then
      some ((List.range names.length).map fun i => items[i]?)
    else none

/-- The tag that says which alternative a record is, with the other parts. -/
def splitTag (key : String) : Parts α → Option (α × Parts α)
  | named fields =>
    (fields.lookup key).map fun tag => (tag, named (fields.filter fun p => p.1 != key))
  | ordered [] => none
  | ordered (tag :: rest) => some (tag, ordered rest)

end Parts

namespace Node

/-- The parts of an item that can be read as a record. -/
def parts? : Node → Option (Parts Node)
  | object fields => some (.named fields)
  | list items => some (.ordered items)
  | _ => none

/-- Whether an item stands for no content: below a tag an empty object does as well. -/
def isEmpty (tagged : Bool) : Node → Bool
  | null => true
  | object [] => tagged
  | _ => false

/-- One of several named alternatives: its name, or an object that maps the name to no content. -/
def choice? {α : Type} (tagged : Bool) (ofName? : String → Option α) : Node → Option α
  | text s => ofName? s
  | object [(name, content)] => if content.isEmpty tagged then ofName? name else none
  | _ => none

end Node

end Tabular
