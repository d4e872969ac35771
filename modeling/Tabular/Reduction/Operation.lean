namespace Tabular

inductive Reduction where
  /-- The number of rows, missing values included. -/
  | count
  /-- The number of distinct values. -/
  | countUnique
  | sum
  | mean
  | min
  | max
  /-- The first value that is not missing. -/
  | first
  /-- The last value that is not missing. -/
  | last
deriving DecidableEq

namespace Reduction

/-- The name used in reduced columns, as in `sum(amount)`. -/
def name : Reduction → String
  | count => "count"
  | countUnique => "count_unique"
  | sum => "sum"
  | mean => "mean"
  | min => "min"
  | max => "max"
  | first => "first"
  | last => "last"

def inspect : Reduction → String
  | count => "Count"
  | countUnique => "CountUnique"
  | sum => "Sum"
  | mean => "Mean"
  | min => "Min"
  | max => "Max"
  | first => "TakeFirst"
  | last => "TakeLast"

def all : List Reduction :=
  [.count, .countUnique, .sum, .mean, .min, .max, .first, .last]

def ofName? (text : String) : Option Reduction :=
  all.find? (·.name == text)

end Reduction

end Tabular
