import Tabular.Binary.Basic

namespace Tabular

/-- The whole number nearest to `n / d`; a tie goes to the even one. -/
def roundEven (n d : Nat) : Nat :=
  match compare (2 * (n % d)) d with
  | .lt => n / d
  | .gt => n / d + 1
  | .eq => if n / d % 2 = 0 then n / d else n / d + 1

/-- The code of the number nearest to `n / d` quanta. -/
def Format.codeNear (f : Format) (n d : Nat) : Nat :=
  let shift := (n / d).log2 - f.fractionWidth
  min f.infinityCode (shift * Nat.pow 2 f.fractionWidth + roundEven n (d * Nat.pow 2 shift))

theorem Format.codeNear_le (f : Format) (n d : Nat) : f.codeNear n d ≤ f.infinityCode :=
  Nat.min_le_left _ _

namespace Binary

variable {f g : Format}

/-- The number nearest to `n / d` quanta, with the given sign. -/
def ofRatio (negative : Bool) (n d : Nat) : Binary f :=
  ⟨negative, f.codeNear n d, Nat.lt_of_le_of_lt (f.codeNear_le n d) f.infinityCode_lt⟩

def ofInt (n : Int) : Binary f := ofRatio (decide (n < 0)) (n.natAbs * f.unit) 1

/-- The greatest whole number whose square is at most `n`, one binary digit at a time. -/
def rootFloor (n : Nat) : Nat :=
  if h : n = 0 then 0
  else
    let r := 2 * rootFloor (n / 4)
    if (r + 1) * (r + 1) ≤ n then r + 1 else r
termination_by n
decreasing_by exact Nat.div_lt_self (Nat.pos_of_ne_zero h) (by decide)

/-- A NaN with its quiet bit set; its sign and its other bits stay. -/
def quiet (x : Binary f) : Binary f :=
  ⟨x.negative, x.code ||| f.quietBit, Nat.or_lt_two_pow x.code_lt f.quietBit_lt⟩

/-- A NaN of another format: the leading fraction bits are kept and the quiet bit is set. -/
def convertNaN (x : Binary f) : Binary g :=
  let fraction :=
    x.code * Nat.pow 2 g.fractionWidth / Nat.pow 2 f.fractionWidth % Nat.pow 2 g.fractionWidth
  ⟨x.negative, fraction ||| g.nanCode,
    Nat.or_lt_two_pow (Nat.lt_of_lt_of_le (Nat.mod_lt _ (Nat.two_pow_pos _)) g.fraction_le)
      g.nanCode_lt⟩

/-- The nearest number of another format. -/
def convert (x : Binary f) : Binary g :=
  if x.isNaN then x.convertNaN
  else if x.isInfinite then infinity x.negative
  else ofRatio x.negative (x.magnitude * g.unit) f.unit

end Binary

end Tabular
