import Tabular.Decimal.Shortest

namespace Tabular

namespace Decimal

def digits (d : Decimal) : List Char := Nat.toDigits 10 d.significand

/-- The power of ten of the leading digit. -/
def leading (d : Decimal) : Int := d.digits.length + d.exponent - 1

/-- Positional notation; `whole` is what follows the digits of a whole number. -/
def positional (d : Decimal) (whole : List Char) : List Char :=
  let point := d.digits.length + d.exponent
  if 0 ≤ d.exponent then d.digits ++ List.replicate d.exponent.toNat '0' ++ whole
  else if 0 < point then d.digits.take point.toNat ++ '.' :: d.digits.drop point.toNat
  else '0' :: '.' :: List.replicate (-point).toNat '0' ++ d.digits

/-- Scientific notation with one digit before the point; `plus` is the sign of an exponent that is
not negative. -/
def scientific (d : Decimal) (plus : List Char) : List Char :=
  let fraction := match d.digits.drop 1 with
    | [] => []
    | rest => '.' :: rest
  let sign := if d.leading < 0 then ['-'] else plus
  d.digits.take 1 ++ fraction ++ 'e' :: sign ++ Nat.toDigits 10 d.leading.natAbs

end Decimal

/-- The choices that fix the text of a number. -/
structure Layout where
  /-- The leading powers of ten written positionally, `none` for all of them. -/
  positional : Option (Int × Int)
  /-- What follows the digits of a whole number. -/
  whole : List Char
  /-- The sign of an exponent that is not negative. -/
  plus : List Char
  tie : DecimalTie
  nan : String
  infinity : String
  negativeInfinity : String

namespace Layout

/-- Text of a value: never an exponent, and no fraction on a whole number. -/
def plain : Layout where
  positional := none
  whole := []
  plus := []
  tie := .up
  nan := "NaN"
  infinity := "inf"
  negativeInfinity := "-inf"

/-- Inspection text: whole numbers get `.0`, and numbers below `1e-4` or from `1e16` an exponent. -/
def inspection : Layout where
  positional := some (-4, 15)
  whole := ['.', '0']
  plus := []
  tie := .up
  nan := "NaN"
  infinity := "inf"
  negativeInfinity := "-inf"

/-- Exchange text: as for inspection, but positional down to `1e-5`, with a sign on every exponent
and without special numbers. -/
def exchange : Layout where
  positional := some (-5, 15)
  whole := ['.', '0']
  plus := ['+']
  tie := .even
  nan := "null"
  infinity := "null"
  negativeInfinity := "null"

def isPositional (l : Layout) (leading : Int) : Bool :=
  match l.positional with
  | none => true
  | some (low, high) => decide (low ≤ leading ∧ leading ≤ high)

end Layout

def Format.magnitudeText (f : Format) (l : Layout) (code : Nat) : List Char :=
  if code = 0 then '0' :: l.whole
  else
    let d := (RoundingInterval.ofCode f code).shortest l.tie
    if l.isPositional d.leading then d.positional l.whole else d.scientific l.plus

def Binary.text {f : Format} (l : Layout) (x : Binary f) : String :=
  if x.isNaN then l.nan
  else if x.isInfinite then (if x.negative then l.negativeInfinity else l.infinity)
  else String.ofList ((if x.negative then ['-'] else []) ++ f.magnitudeText l x.code)

end Tabular
