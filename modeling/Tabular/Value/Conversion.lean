import Tabular.Error

namespace Tabular

/-- The nearest point of the range from `low` to `high`. -/
def clamp (low high n : Int) : Int := max low (min high n)

def clampInt64 (n : Int) : Int64 := Int64.ofInt (clamp (-0x8000000000000000) 0x7fffffffffffffff n)

/-- A number cut to an integer: toward zero, to the nearer end of the range beyond it, NaN to zero.
-/
def Binary.toInt64 {f : Format} (x : Binary f) : Int64 :=
  if x.isNaN then 0 else clampInt64 x.truncate

namespace Value

def toInt64 (v : Value) : Except Error Int64 :=
  match v.numeric with
  | some (.whole n) => .ok n
  | some (.real x) => .ok x.toInt64
  | none => .error (.notNumeric v)

def toDouble (v : Value) : Except Error Double :=
  match v.numeric with
  | some (.whole n) => .ok (.ofInt n.toInt)
  | some (.real x) => .ok x
  | none => .error (.notNumeric v)

/-- The conversion to 32 bits is checked: what does not fit is refused. -/
def toInt32 (v : Value) : Except Error Int32 :=
  let narrow (fits : Bool) (n : Int) : Except Error Int32 :=
    if fits && decide (-0x80000000 ≤ n ∧ n < 0x80000000) then .ok (Int32.ofInt n)
    else .error (.numericOverflow (.value v) .integer)
  match v.numeric with
  | some (.whole n) => narrow true n.toInt
  | some (.real x) => narrow x.isFinite x.truncate
  | none => .error (.notNumeric v)

/-- A single keeps its bits; anything else is converted to a double and then narrowed. -/
def toSingle (v : Value) : Except Error Single :=
  match v with
  | float x => .ok x
  | _ => v.toDouble.map fun x => x.convert

end Value

/-- An integer against a number, without rounding the integer; a NaN is above every integer. -/
def compareIntReal (n : Int64) (x : Double) : Ordering :=
  let limit : Double := .ofInt 0x8000000000000000
  if x.isNaN || limit.le x then .lt
  else if x.lt limit.neg then .gt
  else
    let whole : Double := .ofInt x.truncate
    match compare n.toInt x.truncate with
    | .eq => if whole.lt x then .lt else if x.lt whole then .gt else .eq
    | order => order

/-- Two numbers in numeric order; a NaN is placed by its bit pattern. -/
def compareReals (x y : Double) : Ordering :=
  (x.compare? y).getD (x.totalCompare y)

def Numeric.compare : Numeric → Numeric → Ordering
  | whole m, whole n => Ord.compare m.toInt n.toInt
  | whole m, real y => compareIntReal m y
  | real x, whole n => (compareIntReal n x).swap
  | real x, real y => compareReals x y

def compareBytes : List UInt8 → List UInt8 → Ordering
  | [], [] => .eq
  | [], _ :: _ => .lt
  | _ :: _, [] => .gt
  | a :: as, b :: bs => (compare a.toNat b.toNat).then (compareBytes as bs)

/-- The order of two values: numbers with numbers, and texts, booleans and byte arrays each with
their own kind. Missing values have no order. -/
def Value.compare (a b : Value) : Except Error Ordering :=
  let mismatch : Except Error Ordering := .error (.typeMismatch (.ofType a.type) (.value b))
  match a, b with
  | .string s, .string t => .ok (Ord.compare s t)
  | .bytes s, .bytes t => .ok (compareBytes s t)
  | .boolean s, .boolean t => .ok (Ord.compare s t)
  | .boolean _, _ => mismatch
  | _, .boolean _ => mismatch
  | _, _ =>
    match a.numeric, b.numeric with
    | some m, some n => .ok (m.compare n)
    | _, _ => mismatch

end Tabular
