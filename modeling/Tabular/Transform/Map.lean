import Tabular.Condition.Basic
import Tabular.Dataset

namespace Tabular

/-- A new row in place of an old one; it has to fit the schema. -/
def Schema.mapRow (s : Schema) (f : Row → Row) (row : Row) : Except Error Row :=
  (s.validateRow (f row)).map fun _ => f row

/-- A row with a new value at a position that it has to have. -/
def Row.replaceAt (row : Row) (position : Nat) (v : Value) : Except Error Row :=
  if position < row.length then .ok (row.set position v)
  else .error (.outsideRow position row.length)

namespace Dataset

/-- Every row changed by a function; the first row that does not fit the schema is reported. -/
def mapRows (d : Dataset) (f : Row → Row) : Except Error Dataset := do
  return { d with rows := ← d.rows.mapM (d.schema.mapRow f) }

/-- Sets a column to a value that it accepts, on every row that satisfies a condition. -/
def replaceWhere (d : Dataset) (column : String) (v : Value) (c : Condition) :
    Except Error Dataset := do
  let (i, f) ← d.schema.requireColumn column
  if !f.type.accepts v then
    throw (.typeMismatch (.forColumn f.type f.name) (.value v))
  let b ← c.bind d.schema
  let rows ← d.rows.mapM fun row => do
    if ← b.evaluateRow row then Row.replaceAt row i v else return row
  return { d with rows := rows }

end Dataset

end Tabular
