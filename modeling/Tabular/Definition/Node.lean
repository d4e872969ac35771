import Tabular.Decimal.Layout
import Tabular.Text.Inspection

namespace Tabular

/-- An item of a structured definition. -/
inductive Node where
  | null
  | boolean (b : Bool)
  | whole (n : Int)
  /-- A finite number that is not written as an integer. -/
  | real (x : Double)
  | text (s : String)
  | list (items : List Node)
  | object (fields : List (String × Node))

abbrev Definition := List (String × Node)

namespace Node

mutual

/-- The exchange text of an item, without blanks. -/
def exchange : Node → String
  | null => "null"
  | boolean b => if b then "true" else "false"
  | whole n => toString n
  | real x => x.text .exchange
  | text s => exchangeText s
  | list items => "[" ++ ",".intercalate (exchangeItems items) ++ "]"
  | object fields => "\x7b" ++ ",".intercalate (exchangeFields fields) ++ "\x7d"

def exchangeItems : List Node → List String
  | [] => []
  | n :: rest => exchange n :: exchangeItems rest

def exchangeFields : List (String × Node) → List String
  | [] => []
  | (name, n) :: rest => (exchangeText name ++ ":" ++ exchange n) :: exchangeFields rest

end

/-- The integer of an item that is written as one. -/
def whole? : Node → Option Int
  | whole n => some n
  | _ => none

def text? : Node → Option String
  | text s => some s
  | _ => none

def boolean? : Node → Option Bool
  | boolean b => some b
  | _ => none

def list? : Node → Option (List Node)
  | list items => some items
  | _ => none

/-- The integer of an item, if it lies in a range. -/
def wholeIn? (low high : Int) (n : Node) : Option Int :=
  n.whole?.filter fun i => decide (low ≤ i ∧ i ≤ high)

def texts? (n : Node) : Option (List String) :=
  n.list?.bind fun items => items.mapM text?

end Node

/-- A definition with one more field, placed by its name. -/
def Definition.insert (name : String) (n : Node) : Definition → Definition
  | [] => [(name, n)]
  | (other, m) :: rest =>
    if name < other then (name, n) :: (other, m) :: rest
    else (other, m) :: insert name n rest

end Tabular
