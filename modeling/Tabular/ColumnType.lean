namespace Tabular

inductive ColumnType where
  | string
  | integer
  | long
  | float
  | double
  | boolean
  | byte
  | bytes
  | categorical
deriving DecidableEq

namespace ColumnType

def all : List ColumnType :=
  [.string, .integer, .long, .float, .double, .boolean, .byte, .bytes, .categorical]

def tag : ColumnType → String
  | string => "String"
  | integer => "Integer"
  | long => "Long"
  | float => "Float"
  | double => "Double"
  | boolean => "Boolean"
  | byte => "Byte"
  | bytes => "Bytes"
  | categorical => "Categorical"

/-- The name of the representation behind a column type, as inspection output shows it. -/
def storageName : ColumnType → String
  | string => "Utf8"
  | integer => "Int32"
  | long => "Int64"
  | float => "Float32"
  | double => "Float64"
  | boolean => "Bool"
  | byte => "Byte"
  | bytes => "Bytes"
  | categorical => "Categorical"

def ofTag? (text : String) : Option ColumnType :=
  all.find? (·.tag == text)

/-- Integer and floating point columns are numeric; boolean columns are not. -/
def isNumeric : ColumnType → Bool
  | integer | long | float | double | byte => true
  | string | boolean | bytes | categorical => false

def isFloating : ColumnType → Bool
  | float | double => true
  | _ => false

theorem mem_all (t : ColumnType) : t ∈ all := by
  cases t <;> decide

end ColumnType

end Tabular
