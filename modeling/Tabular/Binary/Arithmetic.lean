import Tabular.Binary.Round

namespace Tabular.Binary

variable {f : Format}

/-- The number nearest to a count of quanta; `negativeZero` is the sign of an exact zero. -/
def ofQuanta (negativeZero : Bool) (n : Int) (d : Nat) : Binary f :=
  ofRatio (if n = 0 then negativeZero else decide (n < 0)) n.natAbs d

def add (x y : Binary f) : Binary f :=
  if x.isNaN then x.quiet
  else if y.isNaN then y.quiet
  else if x.isInfinite then
    if y.isInfinite && x.negative != y.negative then invalid else x
  else if y.isInfinite then y
  else ofQuanta (x.negative && y.negative) (x.quanta + y.quanta) 1

def sub (x y : Binary f) : Binary f :=
  if y.isNaN && !x.isNaN then y.quiet else x.add y.neg

def mul (x y : Binary f) : Binary f :=
  let negative := x.negative != y.negative
  if x.isNaN then x.quiet
  else if y.isNaN then y.quiet
  else if x.isInfinite || y.isInfinite then
    if x.isZero || y.isZero then invalid else infinity negative
  else ofRatio negative (x.magnitude * y.magnitude) f.unit

def div (x y : Binary f) : Binary f :=
  let negative := x.negative != y.negative
  if x.isNaN then x.quiet
  else if y.isNaN then y.quiet
  else if x.isInfinite then
    if y.isInfinite then invalid else infinity negative
  else if y.isInfinite then { (zero : Binary f) with negative := negative }
  else if y.isZero then
    if x.isZero then invalid else infinity negative
  else ofRatio negative (x.magnitude * f.unit) y.magnitude

/-- The product of `x` and `y` plus `z`, rounded once. -/
def mulAdd (x y z : Binary f) : Binary f :=
  if x.isFinite && y.isFinite then
    if z.isFinite then
      ofQuanta ((x.negative != y.negative) && z.negative)
        (x.quanta * y.quanta + z.quanta * f.unit) f.unit
    else zero.add z
  else (x.mul y).add z

/-- The square root; an inexact one is told from its floor by a half added before rounding. -/
def sqrt (x : Binary f) : Binary f :=
  if x.isNaN then x.quiet
  else if x.isZero then x
  else if x.negative then invalid
  else if x.isInfinite then x
  else
    let square := x.magnitude * f.unit
    let root := rootFloor square
    if root * root = square then ofRatio false root 1 else ofRatio false (2 * root + 1) 2

end Tabular.Binary
