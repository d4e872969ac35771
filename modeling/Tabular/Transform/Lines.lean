import Tabular.Dataset
import Tabular.Text.Search

namespace Tabular

/-- The text of a field before quoting. -/
def Value.fieldText : Value → String
  | .null _ => ""
  | v => v.text

def needsQuotes (delimiter quote text : List Char) : Bool :=
  (!delimiter.isEmpty && occursIn delimiter text) || (!quote.isEmpty && occursIn quote text) ||
    text.any fun c => c == '\n' || c == '\r'

def writtenField (delimiter : String) (quote : Option String) (text : String) : String :=
  match quote with
  | some q =>
    if needsQuotes delimiter.toList q.toList text.toList then
      q ++ String.ofList (doubled q.toList text.toList) ++ q
    else text
  | none => text

def Row.delimited (row : Row) (delimiter : String) (quote : Option String) : String :=
  delimiter.intercalate (row.map fun v => writtenField delimiter quote v.fieldText)

/-- The column names and then every row as a line. -/
def Dataset.lines (d : Dataset) (delimiter : String) (quote : Option String) : List String :=
  (d.schema.names.map Value.string :: d.rows).map fun row => Row.delimited row delimiter quote

end Tabular
