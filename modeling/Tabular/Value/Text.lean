import Tabular.Decimal.Layout
import Tabular.Text.Inspection
import Tabular.Value.Basic

namespace Tabular.Value

/-- The numbers of a byte array in brackets. -/
def byteListText (data : List UInt8) : String :=
  inspectList (data.map fun b => toString b.toNat)

def text : Value → String
  | null _ => "null"
  | string s => s
  | integer n => toString n.toInt
  | long n => toString n.toInt
  | float x => x.text .plain
  | double x => x.text .plain
  | boolean b => if b then "true" else "false"
  | byte n => toString n.toInt
  | bytes data => byteListText data

/-- The value with its type, as messages name it. -/
def describe (v : Value) : String :=
  match v with
  | null t => inspectApply "Null" t.tag
  | bytes data => inspectApply "Bytes" ("len=" ++ toString data.length)
  | _ => inspectApply v.type.tag v.text

def inspect (v : Value) : String :=
  match v with
  | null t => inspectApply "Null" t.storageName
  | string s => inspectApply v.type.storageName (inspectText s)
  | float x => inspectApply v.type.storageName (x.text .inspection)
  | double x => inspectApply v.type.storageName (x.text .inspection)
  | _ => inspectApply v.type.storageName v.text

end Tabular.Value
