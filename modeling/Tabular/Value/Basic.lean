import Tabular.Binary.Order
import Tabular.Binary.Round
import Tabular.ColumnType

namespace Tabular

inductive Value where
  | null (type : ColumnType)
  | string (text : String)
  | integer (n : Int32)
  | long (n : Int64)
  | float (x : Single)
  | double (x : Double)
  | boolean (b : Bool)
  | byte (n : Int8)
  | bytes (data : List UInt8)
deriving DecidableEq

/-- One record: a value per column. -/
abbrev Row := List Value

/-- The two families that numbers compare in. -/
inductive Numeric where
  | whole (n : Int64)
  | real (x : Double)

namespace Value

/-- Sameness of values: kind and content agree, where numbers follow numeric equality. -/
def same : Value → Value → Bool
  | null s, null t => s == t
  | string a, string b => a == b
  | integer a, integer b => a == b
  | long a, long b => a == b
  | float a, float b => a == b
  | double a, double b => a == b
  | boolean a, boolean b => a == b
  | byte a, byte b => a == b
  | bytes a, bytes b => a == b
  | _, _ => false

instance : BEq Value where
  beq := same

def isNull : Value → Bool
  | null _ => true
  | _ => false

/-- The type of a value; text counts as a string even in a categorical column. -/
def type : Value → ColumnType
  | null t => t
  | string _ => .string
  | integer _ => .integer
  | long _ => .long
  | float _ => .float
  | double _ => .double
  | boolean _ => .boolean
  | byte _ => .byte
  | bytes _ => .bytes

/-- The number a value stands for; booleans stand for zero and one. -/
def numeric : Value → Option Numeric
  | integer n => some (.whole n.toInt64)
  | long n => some (.whole n)
  | byte n => some (.whole n.toInt64)
  | boolean b => some (.whole (if b then 1 else 0))
  | float x => some (.real x.convert)
  | double x => some (.real x)
  | null _ | string _ | bytes _ => none

def isNumeric (v : Value) : Bool := v.numeric.isSome

end Value

/-- Whether a value may be stored in a column: a missing value only in one of its own type. -/
def ColumnType.accepts : ColumnType → Value → Bool
  | t, .null s => t == s
  | .string, .string _ => true
  | .categorical, .string _ => true
  | .integer, .integer _ => true
  | .long, .long _ => true
  | .float, .float _ => true
  | .double, .double _ => true
  | .boolean, .boolean _ => true
  | .byte, .byte _ => true
  | .bytes, .bytes _ => true
  | _, _ => false

end Tabular
