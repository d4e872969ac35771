import Tabular.Statistics.ExactSum
import Tabular.Statistics.Integer

namespace Tabular

structure DoubleCounter where
  total : Nat
  missing : Nat
  nan : Nat
  zero : Nat
  positive : Nat
  negative : Nat
  extremes : Extremes Double
  sum : ExactSum
  sumSquares : ExactSum
deriving DecidableEq

namespace DoubleCounter

def empty : DoubleCounter := ⟨0, 0, 0, 0, 0, 0, .empty, .empty, .empty⟩

/-- Adds the square of a number: the rounded square, and what the rounding left off. -/
def addSquare (s : ExactSum) (x : Double) : ExactSum :=
  let square := x.mul x
  let s := s.add square
  if square.isFinite then s.add (x.mulAdd x square.neg) else s

/-- One more number other than NaN; a negative zero counts as zero. -/
def addNumber (c : DoubleCounter) (v : Double) : DoubleCounter :=
  let x := v.add .zero
  { total := c.total + 1
    missing := c.missing
    nan := c.nan
    zero := if x.isZero then c.zero + 1 else c.zero
    positive := if x.isPositive then c.positive + 1 else c.positive
    negative := if x.isZero || x.isPositive then c.negative else c.negative + 1
    extremes := c.extremes.observe compareReals x
    sum := c.sum.add x
    sumSquares := addSquare c.sumSquares x }

def add (c : DoubleCounter) : Option Double → DoubleCounter
  | none => { c with total := c.total + 1, missing := c.missing + 1 }
  | some v =>
    if v.isNaN then { c with total := c.total + 1, nan := c.nan + 1 } else c.addNumber v

def merge (a b : DoubleCounter) : DoubleCounter where
  total := a.total + b.total
  missing := a.missing + b.missing
  nan := a.nan + b.nan
  zero := a.zero + b.zero
  positive := a.positive + b.positive
  negative := a.negative + b.negative
  extremes := a.extremes.merge compareReals b.extremes
  sum := a.sum.merge b.sum
  sumSquares := a.sumSquares.merge b.sumSquares

/-- The number of values that are neither missing nor NaN. -/
def present (c : DoubleCounter) : Nat := c.total - c.missing - c.nan

/-- The variance of a sample, from the rounded sums. -/
def variance (c : DoubleCounter) : Double :=
  let n : Double := .ofInt c.present
  let s := c.sum.value
  (c.sumSquares.value.sub ((s.mul s).div n)).div (n.sub (.ofInt 1))

def report (c : DoubleCounter) (type : ColumnType) : DoubleReport where
  type := type
  total := c.total
  missing := c.missing
  nan := c.nan
  zero := c.zero
  positive := c.positive
  negative := c.negative
  min := c.extremes.min
  max := c.extremes.max
  countMin := c.extremes.countMin
  countMax := c.extremes.countMax
  sum := c.sum.value
  mean := if c.present = 0 then none else some (c.sum.value.div (.ofInt c.present))
  deviation := if c.present ≤ 1 then none else some (deviationOf c.variance)

def inspect (c : DoubleCounter) : String :=
  inspectFields "DoubleCounter" [("count_total", toString c.total),
    ("count_null", toString c.missing), ("count_nan", toString c.nan),
    ("count_zero", toString c.zero), ("count_positive", toString c.positive),
    ("count_negative", toString c.negative),
    ("extremes", c.extremes.inspect (Binary.text .inspection)), ("sum", c.sum.inspect),
    ("sum_squares", c.sumSquares.inspect)]

end DoubleCounter

end Tabular
