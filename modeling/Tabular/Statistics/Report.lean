import Tabular.Decimal.Fixed
import Tabular.Definition.Schema

namespace Tabular

structure IntegerReport where
  type : ColumnType
  total : Nat
  missing : Nat
  zero : Nat
  positive : Nat
  negative : Nat
  min : Option Int64
  max : Option Int64
  countMin : Nat
  countMax : Nat
  sum : Int
  mean : Option Double
  /-- The standard deviation of a sample; there is none of fewer than two values. -/
  deviation : Option Double

structure DoubleReport where
  type : ColumnType
  total : Nat
  missing : Nat
  nan : Nat
  zero : Nat
  positive : Nat
  negative : Nat
  min : Option Double
  max : Option Double
  countMin : Nat
  countMax : Nat
  sum : Double
  mean : Option Double
  deviation : Option Double

/-- The statistics of a text column; lengths are in characters. -/
structure StringReport where
  total : Nat
  missing : Nat
  empty : Nat
  minLength : Option Nat
  maxLength : Option Nat
  countMinLength : Nat
  countMaxLength : Nat
  sumLength : UInt64
  meanLength : Option Double

/-- The statistics of a categorical column; labels are in ascending order. -/
structure CategoricalReport where
  total : Nat
  missing : Nat
  counts : List (String × Nat)

structure BytesReport where
  total : Nat
  missing : Nat
  bytes : UInt64
  minLength : Option Nat
  maxLength : Option Nat

structure BooleanReport where
  total : Nat
  true : Nat
  false : Nat
  missing : Nat

inductive ColumnReport where
  | integer (r : IntegerReport)
  | double (r : DoubleReport)
  | string (r : StringReport)
  | categorical (r : CategoricalReport)
  | bytes (r : BytesReport)
  | boolean (r : BooleanReport)

structure Report where
  schema : Schema
  columns : List ColumnReport

inductive ReportItem where
  | type (t : ColumnType)
  | count (n : Nat)
  | whole (n : Option Int)
  | sum (n : Int)
  | real (x : Option Double)
  | counts (counts : List (String × Nat))

namespace ColumnReport

def total : ColumnReport → Nat
  | integer r => r.total
  | double r => r.total
  | string r => r.total
  | categorical r => r.total
  | bytes r => r.total
  | boolean r => r.total

def missing : ColumnReport → Nat
  | integer r => r.missing
  | double r => r.missing
  | string r => r.missing
  | categorical r => r.missing
  | bytes r => r.missing
  | boolean r => r.missing

def kind : ColumnReport → String
  | integer _ => "integer"
  | double _ => "double"
  | string _ => "string"
  | categorical _ => "categorical"
  | bytes _ => "bytes"
  | boolean _ => "boolean"

def items : ColumnReport → List (String × ReportItem)
  | integer r => [("column_type", .type r.type), ("count_total", .count r.total),
      ("count_null", .count r.missing), ("count_zero", .count r.zero),
      ("count_positive", .count r.positive), ("count_negative", .count r.negative),
      ("min", .whole (r.min.map Int64.toInt)), ("max", .whole (r.max.map Int64.toInt)),
      ("count_min", .count r.countMin), ("count_max", .count r.countMax), ("sum", .sum r.sum),
      ("mean", .real r.mean), ("sample_stdev", .real r.deviation)]
  | double r => [("column_type", .type r.type), ("count_total", .count r.total),
      ("count_null", .count r.missing), ("count_nan", .count r.nan),
      ("count_zero", .count r.zero), ("count_positive", .count r.positive),
      ("count_negative", .count r.negative), ("min", .real r.min), ("max", .real r.max),
      ("count_min", .count r.countMin), ("count_max", .count r.countMax),
      ("sum", .real (some r.sum)), ("mean", .real r.mean), ("sample_stdev", .real r.deviation)]
  | string r => [("count_total", .count r.total), ("count_null", .count r.missing),
      ("count_empty", .count r.empty), ("min_length", .whole (r.minLength.map Int.ofNat)),
      ("max_length", .whole (r.maxLength.map Int.ofNat)),
      ("count_min_length", .count r.countMinLength),
      ("count_max_length", .count r.countMaxLength), ("sum_length", .count r.sumLength.toNat),
      ("mean_length", .real r.meanLength)]
  | categorical r => [("count_total", .count r.total), ("count_null", .count r.missing),
      ("counts", .counts r.counts)]
  | bytes r => [("count_total", .count r.total), ("count_null", .count r.missing),
      ("total_bytes", .count r.bytes.toNat), ("min_length", .whole (r.minLength.map Int.ofNat)),
      ("max_length", .whole (r.maxLength.map Int.ofNat))]
  | boolean r => [("count_total", .count r.total), ("count_true", .count r.true),
      ("count_false", .count r.false), ("count_null", .count r.missing)]

/-- The range of a column with at least one value. -/
def rangeText (name between : String) : Option String → Option String → String
  | some low, some high => name ++ low ++ between ++ high
  | _, _ => ""

def meanText : Option Double → String
  | some mean => ", mean=" ++ mean.fixedText 4
  | none => ""

/-- What follows the counts in the text of a column. -/
def details : ColumnReport → String
  | integer r =>
    rangeText ", min=" ", max=" (r.min.map fun n => toString n.toInt)
      (r.max.map fun n => toString n.toInt) ++ meanText r.mean
  | double r =>
    rangeText ", min=" ", max=" (r.min.map (Binary.text .plain)) (r.max.map (Binary.text .plain)) ++
      meanText r.mean ++ if r.nan = 0 then "" else ", nan=" ++ toString r.nan
  | string r => rangeText ", length=" "..=" (r.minLength.map toString) (r.maxLength.map toString)
  | categorical r => ", categories=" ++ toString r.counts.length
  | bytes r => ", bytes=" ++ toString r.bytes
  | boolean r => ", true=" ++ toString r.true ++ ", false=" ++ toString r.false

end ColumnReport

def ReportItem.exchange : ReportItem → String
  | type t => exchangeText t.tag
  | count n => toString n
  | whole (some n) => toString n
  | whole none => "null"
  | sum n => toString n
  | real (some x) => x.text .exchange
  | real none => "null"
  | counts cs =>
    "\x7b" ++ ",".intercalate (cs.map fun c => exchangeText c.1 ++ ":" ++ toString c.2) ++ "\x7d"

/-- The exchange text of fields in the given order. -/
def exchangeObject (fields : List (String × String)) : String :=
  "\x7b" ++ ",".intercalate (fields.map fun f => exchangeText f.1 ++ ":" ++ f.2) ++ "\x7d"

def ColumnReport.exchange (r : ColumnReport) : String :=
  exchangeObject (("kind", exchangeText r.kind) :: r.items.map fun i => (i.1, i.2.exchange))

namespace Report

def column? (r : Report) (name : String) : Option ColumnReport :=
  (r.schema.indexOf? name).bind fun i => r.columns[i]?

def lineText (f : Field) (c : ColumnReport) : String :=
  "  " ++ f.name ++ " [" ++ f.type.tag ++ "]: total=" ++ toString c.total ++ ", null=" ++
    toString c.missing ++ c.details ++ "\n"

/-- The text of a report: a heading and a line per column. -/
def text (r : Report) : String :=
  "DataAnalysis(columns=" ++ toString r.columns.length ++ ")\n" ++
    String.join ((r.schema.fields.zip r.columns).map fun p => lineText p.1 p.2)

def exchange (r : Report) : String :=
  exchangeObject [("schema", (Node.object r.schema.toDefinition).exchange),
    ("columns", "[" ++ ",".intercalate (r.columns.map ColumnReport.exchange) ++ "]")]

end Report

end Tabular
