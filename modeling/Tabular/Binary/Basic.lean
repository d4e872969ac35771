import Tabular.Binary.Format

namespace Tabular

/-- The magnitude with a given code, in quanta. -/
def Format.quantaOf (f : Format) (code : Nat) : Nat :=
  let exponent := code / Nat.pow 2 f.fractionWidth
  let fraction := code % Nat.pow 2 f.fractionWidth
  if exponent = 0 then fraction
  else (Nat.pow 2 f.fractionWidth + fraction) * Nat.pow 2 (exponent - 1)

structure Binary (f : Format) where
  negative : Bool
  code : Nat
  code_lt : code < f.codeLimit
deriving DecidableEq

/-- Numbers with 24 significant bits. -/
abbrev Single := Binary .binary32

/-- Numbers with 53 significant bits. -/
abbrev Double := Binary .binary64

namespace Binary

variable {f : Format}

/-- The number with a given bit pattern; bits above the sign bit do not count. -/
def ofBits (bits : Nat) : Binary f :=
  ⟨bits / f.codeLimit % 2 == 1, bits % f.codeLimit, Nat.mod_lt _ (Nat.two_pow_pos _)⟩

def toBits (x : Binary f) : Nat :=
  (if x.negative then f.codeLimit else 0) + x.code

def zero : Binary f := ⟨false, 0, Nat.two_pow_pos _⟩

def infinity (negative : Bool) : Binary f := ⟨negative, f.infinityCode, f.infinityCode_lt⟩

def nan : Binary f := ⟨false, f.nanCode, f.nanCode_lt⟩

/-- The NaN that an invalid operation yields. -/
def invalid : Binary f := ⟨true, f.nanCode, f.nanCode_lt⟩

def isNaN (x : Binary f) : Bool := decide (f.infinityCode < x.code)

def isInfinite (x : Binary f) : Bool := x.code == f.infinityCode

def isFinite (x : Binary f) : Bool := decide (x.code < f.infinityCode)

def isZero (x : Binary f) : Bool := x.code == 0

def neg (x : Binary f) : Binary f := { x with negative := !x.negative }

/-- The magnitude of a finite number in quanta. -/
def magnitude (x : Binary f) : Nat := f.quantaOf x.code

/-- A finite number in quanta. -/
def quanta (x : Binary f) : Int :=
  if x.negative then -(x.magnitude : Int) else x.magnitude

/-- The whole part, rounded toward zero. -/
def truncate (x : Binary f) : Int :=
  if x.negative then -((x.magnitude / f.unit : Nat) : Int) else (x.magnitude / f.unit : Nat)

end Binary

end Tabular
