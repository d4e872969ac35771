import Tabular.Binary.Basic

namespace Tabular

/-- The decimal `significand * 10 ^ exponent`. -/
structure Decimal where
  significand : Nat
  exponent : Int
deriving DecidableEq

/-- Which of two equally near decimals is taken. -/
inductive DecimalTie where
  | up
  | even
deriving DecidableEq

/-- The reals that round to one number, with the number itself; all are counted in `1 / unit`. -/
structure RoundingInterval where
  lower : Nat
  value : Nat
  upper : Nat
  unit : Nat
  /-- Both ends belong to the interval. -/
  closed : Bool

namespace RoundingInterval

/-- The interval ends half way to the neighbouring codes, and holds its ends if the code is even. -/
def ofCode (f : Format) (code : Nat) : RoundingInterval where
  lower := f.quantaOf (code - 1) + f.quantaOf code
  value := 2 * f.quantaOf code
  upper := f.quantaOf code + f.quantaOf (code + 1)
  unit := 2 * f.unit
  closed := code % 2 == 0

/-- Whether the grid point `c * 10 ^ e` lies in the interval. -/
def contains (s : RoundingInterval) (c : Nat) (e : Int) : Bool :=
  let point := c * s.unit * Nat.pow 10 e.toNat
  let lower := s.lower * Nat.pow 10 (-e).toNat
  let upper := s.upper * Nat.pow 10 (-e).toNat
  if s.closed then decide (lower ≤ point ∧ point ≤ upper)
  else decide (lower < point ∧ point < upper)

/-- The point of the grid `10 ^ e` in the interval that is nearest to the value. -/
def nearest? (s : RoundingInterval) (tie : DecimalTie) (e : Int) : Option Nat :=
  let n := s.value * Nat.pow 10 (-e).toNat
  let d := s.unit * Nat.pow 10 e.toNat
  let below := n / d
  match s.contains below e, s.contains (below + 1) e with
  | false, false => none
  | true, false => some below
  | false, true => some (below + 1)
  | true, true =>
    match compare (2 * (n % d)) d with
    | .lt => some below
    | .gt => some (below + 1)
    | .eq => some (if tie = .even ∧ below % 2 = 0 then below else below + 1)

/-- The exponents tried, the coarsest grid first. -/
def exponents (s : RoundingInterval) : List Int :=
  let digits := (Nat.toDigits 10 (s.value / s.unit)).length
  (List.range (digits + 330)).map fun i : Nat => (digits : Int) - (i : Int)

/-- The shortest decimal in the interval, the nearest to the value among those. -/
def shortest (s : RoundingInterval) (tie : DecimalTie) : Decimal :=
  (s.exponents.findSome? fun e => (s.nearest? tie e).map (⟨·, e⟩)).getD ⟨0, 0⟩

end RoundingInterval

end Tabular
