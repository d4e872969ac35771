import Tabular.Binary.Round
import Tabular.Decimal.Layout

namespace Tabular

/-- Digits with `places` of them behind the point. -/
def fixedDigits (places n : Nat) : List Char :=
  let fraction := Nat.toDigits 10 (n % Nat.pow 10 places)
  Nat.toDigits 10 (n / Nat.pow 10 places) ++
    '.' :: List.replicate (places - fraction.length) '0' ++ fraction

/-- A number rounded to `places` decimal places; an exact tie goes to the even digit. -/
def Binary.fixedText {f : Format} (places : Nat) (x : Binary f) : String :=
  if x.isFinite then
    String.ofList ((if x.negative then ['-'] else []) ++
      fixedDigits places (roundEven (x.magnitude * Nat.pow 10 places) f.unit))
  else x.text .plain

end Tabular
