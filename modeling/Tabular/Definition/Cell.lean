import Tabular.Definition.Node
import Tabular.Value.Conversion

namespace Tabular

/-- A number, or the name of a special number. -/
def Binary.toNode (x : Double) : Node :=
  if x.isFinite then .real x
  else if x.isNaN then .text "NaN"
  else if x.negative then .text "-Infinity"
  else .text "Infinity"

def Value.toNode : Value → Node
  | .null _ => .null
  | .string s => .text s
  | .integer n => .whole n.toInt
  | .long n => .whole n.toInt
  | .byte n => .whole n.toInt
  | .float x => Binary.toNode x.convert
  | .double x => Binary.toNode x
  | .boolean b => .boolean b
  | .bytes data => .list (data.map fun b => .whole b.toNat)

namespace Node

def double? : Node → Option Double
  | whole n => some (.ofInt n)
  | real x => some x
  | text "NaN" => some .nan
  | text "Infinity" => some (.infinity false)
  | text "-Infinity" => some (.infinity true)
  | _ => none

def int64? (n : Node) : Option Int64 :=
  (n.wholeIn? (-0x8000000000000000) 0x7fffffffffffffff).map Int64.ofInt

def bytes? (n : Node) : Option (List UInt8) :=
  n.list?.bind fun items => items.mapM fun i => (i.wholeIn? 0 255).map fun b => b.toNat.toUInt8

end Node

def Value.ofNode (type : ColumnType) (n : Node) : Except Error Value :=
  let required {α : Type} (read : Option α) (f : α → Except Error Value) : Except Error Value :=
    match read with
    | some a => f a
    | none => .error (.definition (.notAValue n.exchange type))
  let narrow (low high i : Int) (v : Value) : Except Error Value :=
    if low ≤ i ∧ i ≤ high then .ok v else .error (.numericOverflow (.whole i) type)
  match n, type with
  | .null, _ => .ok (.null type)
  | _, .string | _, .categorical => required n.text? fun s => .ok (.string s)
  | _, .integer => required n.int64? fun i =>
      narrow (-0x80000000) 0x7fffffff i.toInt (.integer i.toInt32)
  | _, .long => required n.int64? fun i => .ok (.long i)
  | _, .byte => required n.int64? fun i => narrow (-128) 127 i.toInt (.byte i.toInt8)
  | _, .float => required n.double? fun x => .ok (.float x.convert)
  | _, .double => required n.double? fun x => .ok (.double x)
  | _, .boolean => required n.boolean? fun b => .ok (.boolean b)
  | _, .bytes => required n.bytes? fun data => .ok (.bytes data)

end Tabular
