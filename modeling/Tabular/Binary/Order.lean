import Tabular.Binary.Basic

namespace Tabular.Binary

variable {f : Format}

/-- The signed code, ordered like the numbers themselves. -/
def orderKey (x : Binary f) : Int :=
  if x.negative then -(x.code : Int) else x.code

/-- The signed code with the negative zero below the positive one. -/
def totalKey (x : Binary f) : Int :=
  if x.negative then -(x.code : Int) - 1 else x.code

/-- The numeric order; there is none to or from a NaN. -/
def compare? (x y : Binary f) : Option Ordering :=
  if x.isNaN || y.isNaN then none else some (compare x.orderKey y.orderKey)

/-- The order of the bit patterns: negative NaNs come first and positive NaNs last. -/
def totalCompare (x y : Binary f) : Ordering :=
  compare x.totalKey y.totalKey

/-- Numeric equality: both zeros are equal and a NaN equals nothing. -/
instance : BEq (Binary f) where
  beq x y := x.compare? y == some .eq

def lt (x y : Binary f) : Bool := x.compare? y == some .lt

def le (x y : Binary f) : Bool := x.lt y || x == y

def isPositive (x : Binary f) : Bool := !x.isNaN && !x.isZero && !x.negative

end Tabular.Binary
