namespace Tabular

/-- The fraction `n / 10 ^ places` behind a point, without zeros at the end. -/
def fractionText (places n : Nat) : String :=
  if n = 0 then ""
  else
    let digits := Nat.toDigits 10 n
    let padded := List.replicate (places - digits.length) '0' ++ digits
    String.ofList ('.' :: (padded.reverse.dropWhile (· == '0')).reverse)

/-- A count of nanoseconds in a unit of `10 ^ places` of them. -/
def inUnit (places n : Nat) (unit : String) : String :=
  toString (n / Nat.pow 10 places) ++ fractionText places (n % Nat.pow 10 places) ++ unit

def durationText (n : Nat) : String :=
  if 1000000000 ≤ n then inUnit 9 n "s"
  else if 1000000 ≤ n then inUnit 6 n "ms"
  else if 1000 ≤ n then inUnit 3 n "µs"
  else inUnit 0 n "ns"

end Tabular
