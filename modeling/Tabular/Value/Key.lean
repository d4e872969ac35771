import Tabular.Value.Conversion
import Tabular.Binary.Arithmetic

namespace Tabular

/-- The form of a value under which it is looked up. -/
inductive Key where
  | whole (n : Int64)
  | real (x : Double)
  | text (s : String)
  | boolean (b : Bool)
  | bytes (data : List UInt8)
deriving DecidableEq

instance {f : Format} : Hashable (Binary f) where
  hash x := mixHash (hash x.negative) (hash x.code)

deriving instance Hashable for Key

/-- The key of a value; a missing value has none. -/
def Key.of? : Value → Option Key
  | .null _ => none
  | .integer n => some (.whole n.toInt64)
  | .long n => some (.whole n)
  | .byte n => some (.whole n.toInt64)
  | .float x => some (.real ((x.convert : Double).add .zero))
  | .double x => some (.real (x.add .zero))
  | .string s => some (.text s)
  | .boolean b => some (.boolean b)
  | .bytes data => some (.bytes data)

end Tabular
