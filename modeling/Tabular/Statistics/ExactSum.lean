import Tabular.Binary.Arithmetic
import Tabular.Decimal.Layout
import Tabular.Text.Inspection

namespace Tabular

namespace Words

/-- Adds two words and a carry, giving the sum and the next carry. -/
def addWord (a b : UInt64) (carry : Bool) : UInt64 × Bool :=
  let s := a + b
  let t := s + (if carry then 1 else 0)
  (t, decide (s < a) || decide (t < s))

/-- Subtracts a word and a borrow, giving the difference and the next borrow. -/
def subWord (a b : UInt64) (borrow : Bool) : UInt64 × Bool :=
  let s := a - b
  let t := s - (if borrow then 1 else 0)
  (t, decide (a < b) || (borrow && s == 0))

/-- Adds `bs` to `as`, keeping the number of words; beyond `bs` only a carry goes on. -/
def add : List UInt64 → List UInt64 → Bool → List UInt64
  | [], _, _ => []
  | a :: as, [], carry =>
    if carry then (addWord a 0 true).1 :: add as [] (addWord a 0 true).2 else a :: as
  | a :: as, b :: bs, carry => (addWord a b carry).1 :: add as bs (addWord a b carry).2

/-- Subtracts `bs` from `as`, keeping the number of words. -/
def sub : List UInt64 → List UInt64 → Bool → List UInt64
  | [], _, _ => []
  | a :: as, [], borrow =>
    if borrow then (subWord a 0 true).1 :: sub as [] (subWord a 0 true).2 else a :: as
  | a :: as, b :: bs, borrow => (subWord a b borrow).1 :: sub as bs (subWord a b borrow).2

/-- The two's complement: every bit is inverted, and one is added. -/
def negate (ws : List UInt64) : List UInt64 := add (ws.map (~~~ ·)) [] true

/-- Whether the sign bit, the highest one, is set. -/
def isNegative (ws : List UInt64) : Bool := ws.getLastD 0 >>> 63 == 1

/-- The place of the last word other than zero. -/
def top? : List UInt64 → Option Nat
  | [] => none
  | w :: ws =>
    match top? ws with
    | some place => some (place + 1)
    | none => if w = 0 then none else some 0

/-- The 64 bits from the bit `start` on, which may lie across two words. -/
def window (ws : List UInt64) (start : Nat) : UInt64 :=
  let low := ws.getD (start / 64) 0
  let high := ws.getD (start / 64 + 1) 0
  let offset := start % 64
  if offset = 0 then low
  else low >>> offset.toUInt64 ||| high <<< (64 - offset).toUInt64

/-- Whether a bit below the bit `start` is set. -/
def anyBelow (ws : List UInt64) (start : Nat) : Bool :=
  let mask : UInt64 := 1 <<< (start % 64).toUInt64 - 1
  ws.getD (start / 64) 0 &&& mask != 0 || (ws.take (start / 64)).any (· != 0)

end Words

/-- A sum that has not been rounded. -/
structure ExactSum where
  /-- The finite part in quanta, least significant word first. -/
  words : List UInt64
  /-- How often positive infinity was added. -/
  positiveInfinities : Nat
  /-- How often negative infinity was added. -/
  negativeInfinities : Nat
deriving DecidableEq

namespace ExactSum

/-- The number of words: enough for `2 ^ 64` additions of the largest number. -/
def wordCount : Nat := 34

def empty : ExactSum := ⟨List.replicate wordCount 0, 0, 0⟩

/-- The significand of a finite number and the power of two that scales it, in quanta. -/
def scaled (x : Double) : Nat × Nat :=
  let exponent := x.code / Nat.pow 2 52
  let fraction := x.code % Nat.pow 2 52
  if exponent = 0 then (fraction, 0) else (Nat.pow 2 52 + fraction, exponent - 1)

/-- The two words of a significand shifted into its place within the first of them. -/
def placed (significand offset : Nat) : List UInt64 :=
  let low := significand.toUInt64 <<< offset.toUInt64
  let high := if offset = 0 then 0 else significand.toUInt64 >>> (64 - offset).toUInt64
  [low, high]

def addFinite (s : ExactSum) (x : Double) : ExactSum :=
  let (significand, shift) := scaled x
  if significand = 0 then s
  else
    let place := shift / 64
    let parts := placed significand (shift % 64)
    let upper := s.words.drop place
    let upper := if x.negative then Words.sub upper parts false else Words.add upper parts false
    { s with words := s.words.take place ++ upper }

def add (s : ExactSum) (x : Double) : ExactSum :=
  if x.isInfinite then
    if x.negative then { s with negativeInfinities := s.negativeInfinities + 1 }
    else { s with positiveInfinities := s.positiveInfinities + 1 }
  else s.addFinite x

def merge (a b : ExactSum) : ExactSum :=
  ⟨Words.add a.words b.words false, a.positiveInfinities + b.positiveInfinities,
    a.negativeInfinities + b.negativeInfinities⟩

/-- A power of two within the range of normal numbers. -/
def power (k : Int) : Double := .ofBits ((k + 1023).toNat * Nat.pow 2 52)

/-- A number times a power of two, in steps that neither overflow nor lose bits on the way. -/
def scale (x : Double) (k : Int) : Double :=
  if 1023 < k then scale (x.mul (power 1023)) (k - 1023)
  else if k < -1022 then scale (x.mul (power (-1022))) (k + 1022)
  else x.mul (power k)
termination_by k.natAbs

/-- A magnitude in quanta as a number; the last of its leading 64 bits is set if anything is below,
so that there is one rounding. -/
def round (magnitude : List UInt64) : Double :=
  match Words.top? magnitude with
  | none => .zero
  | some place =>
    let high := 64 * place + (magnitude.getD place 0).toNat.log2
    if high < 64 then (Binary.ofInt (magnitude.getD 0 0).toNat : Double).mul (.ofBits 1)
    else
      let start := high - 63
      let leading := Words.window magnitude start
      let leading := if Words.anyBelow magnitude start then leading ||| 1 else leading
      scale (.ofInt leading.toNat) (start - 1074)

/-- The sum as a number; infinities of both signs have none. -/
def value (s : ExactSum) : Double :=
  if s.positiveInfinities > 0 then
    if s.negativeInfinities > 0 then .nan else .infinity false
  else if s.negativeInfinities > 0 then .infinity true
  else
    let negative := Words.isNegative s.words
    let magnitude := round (if negative then Words.negate s.words else s.words)
    if negative then magnitude.neg else magnitude

def inspect (s : ExactSum) : String :=
  inspectFields "ExactSum" [("value", s.value.text .inspection),
    ("pos_inf", toString s.positiveInfinities), ("neg_inf", toString s.negativeInfinities)]

end ExactSum

end Tabular
