namespace Tabular

/-- The two interchange formats in use. -/
inductive Format where
  | binary32
  | binary64
deriving DecidableEq

namespace Format

def fractionWidth : Format → Nat
  | binary32 => 23
  | binary64 => 52

def exponentWidth : Format → Nat
  | binary32 => 8
  | binary64 => 11

/-- One more than the largest code, the code being the bits below the sign bit. -/
def codeLimit (f : Format) : Nat := Nat.pow 2 (f.fractionWidth + f.exponentWidth)

/-- The code of an infinity: all exponent bits set, no fraction bit. -/
def infinityCode (f : Format) : Nat := (Nat.pow 2 f.exponentWidth - 1) * Nat.pow 2 f.fractionWidth

/-- The fraction bit that marks a NaN as quiet. -/
def quietBit (f : Format) : Nat := Nat.pow 2 (f.fractionWidth - 1)

/-- The code of the canonical NaN. -/
def nanCode (f : Format) : Nat := f.infinityCode + f.quietBit

/-- A unit holds `2 ^ quantumExponent` quanta. -/
def quantumExponent : Format → Nat
  | binary32 => 149
  | binary64 => 1074

def unit (f : Format) : Nat := Nat.pow 2 f.quantumExponent

theorem infinityCode_lt (f : Format) : f.infinityCode < f.codeLimit := by
  cases f <;> decide

theorem nanCode_lt (f : Format) : f.nanCode < f.codeLimit := by
  cases f <;> decide

theorem quietBit_lt (f : Format) : f.quietBit < f.codeLimit := by
  cases f <;> decide

theorem fraction_le (f : Format) : Nat.pow 2 f.fractionWidth ≤ f.codeLimit := by
  cases f <;> decide

theorem unit_pos (f : Format) : 0 < f.unit :=
  Nat.two_pow_pos f.quantumExponent

end Format

end Tabular
