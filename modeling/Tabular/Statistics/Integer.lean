import Tabular.Binary.Arithmetic
import Tabular.Statistics.Extremes
import Tabular.Statistics.Report
import Tabular.Value.Conversion

namespace Tabular

def clamp128 (n : Int) : Int :=
  clamp (-0x80000000000000000000000000000000) 0x7fffffffffffffffffffffffffffffff n

/-- An integer that fits 128 bits. -/
def fit128? (n : Int) : Option Int :=
  if -0x80000000000000000000000000000000 ≤ n ∧ n < 0x80000000000000000000000000000000 then some n
  else none

def orderInt64 (a b : Int64) : Ordering := compare a.toInt b.toInt

/-- The square root of a variance; anything but a positive number counts as zero. -/
def deviationOf (variance : Double) : Double :=
  (if variance.isPositive then variance else .zero).sqrt

structure IntegerCounter where
  total : Nat
  missing : Nat
  zero : Nat
  positive : Nat
  negative : Nat
  extremes : Extremes Int64
  sum : Int
  sumSquares : Int
deriving DecidableEq

namespace IntegerCounter

def empty : IntegerCounter := ⟨0, 0, 0, 0, 0, .empty, 0, 0⟩

/-- One more value that is not missing. -/
def addPresent (c : IntegerCounter) (v : Int64) : IntegerCounter :=
  let n := v.toInt
  { total := c.total + 1
    missing := c.missing
    zero := if n = 0 then c.zero + 1 else c.zero
    positive := if 0 < n then c.positive + 1 else c.positive
    negative := if n < 0 then c.negative + 1 else c.negative
    extremes := c.extremes.observe orderInt64 v
    sum := clamp128 (c.sum + n)
    sumSquares := clamp128 (c.sumSquares + n * n) }

def add (c : IntegerCounter) : Option Int64 → IntegerCounter
  | none => { c with total := c.total + 1, missing := c.missing + 1 }
  | some v => c.addPresent v

def merge (a b : IntegerCounter) : IntegerCounter where
  total := a.total + b.total
  missing := a.missing + b.missing
  zero := a.zero + b.zero
  positive := a.positive + b.positive
  negative := a.negative + b.negative
  extremes := a.extremes.merge orderInt64 b.extremes
  sum := clamp128 (a.sum + b.sum)
  sumSquares := clamp128 (a.sumSquares + b.sumSquares)

/-- The number of values that are not missing. -/
def present (c : IntegerCounter) : Nat := c.total - c.missing

/-- The numerator `n * Σx² - (Σx)²` of the variance, unless it leaves 128 bits on the way. -/
def varianceNumerator? (c : IntegerCounter) : Option Int := do
  let squares ← fit128? (c.present * c.sumSquares)
  let square ← fit128? (c.sum * c.sum)
  fit128? (squares - square)

/-- The variance of a sample, from the exact numerator if there is one. -/
def variance (c : IntegerCounter) : Double :=
  match c.varianceNumerator? with
  | some numerator =>
    (Binary.ofInt numerator : Double).div (.ofInt (c.present * (c.present - 1 : Int)))
  | none =>
    let n : Double := .ofInt c.present
    let s : Double := .ofInt c.sum
    ((Binary.ofInt c.sumSquares).sub ((s.mul s).div n)).div (n.sub (.ofInt 1))

def report (c : IntegerCounter) (type : ColumnType) : IntegerReport where
  type := type
  total := c.total
  missing := c.missing
  zero := c.zero
  positive := c.positive
  negative := c.negative
  min := c.extremes.min
  max := c.extremes.max
  countMin := c.extremes.countMin
  countMax := c.extremes.countMax
  sum := c.sum
  mean := if c.present = 0 then none
    else some ((Binary.ofInt c.sum : Double).div (.ofInt c.present))
  deviation := if c.present ≤ 1 then none else some (deviationOf c.variance)

def inspect (c : IntegerCounter) : String :=
  inspectFields "IntegerCounter" [("count_total", toString c.total),
    ("count_null", toString c.missing), ("count_zero", toString c.zero),
    ("count_positive", toString c.positive), ("count_negative", toString c.negative),
    ("extremes", c.extremes.inspect fun n => toString n.toInt), ("sum", toString c.sum),
    ("sum_squares", toString c.sumSquares)]

end IntegerCounter

end Tabular
