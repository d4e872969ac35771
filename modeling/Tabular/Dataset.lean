import Tabular.Schema

namespace Tabular

/-- Rows with the schema they are meant to follow. -/
structure Dataset where
  schema : Schema
  rows : List Row
deriving DecidableEq

namespace Dataset

/-- Every row fits the schema; the first that does not is reported. -/
def validate (d : Dataset) : Except Error Unit :=
  d.rows.forM d.schema.validateRow

def checked (schema : Schema) (rows : List Row) : Except Error Dataset :=
  (Dataset.validate ⟨schema, rows⟩).map fun _ => ⟨schema, rows⟩

def rowCount (d : Dataset) : Nat := d.rows.length

/-- All rows combined from the first to the last. -/
def foldRows {α : Type} (d : Dataset) (init : α) (f : α → Row → α) : α :=
  d.rows.foldl f init

end Dataset

end Tabular
