import Tabular.Error

namespace Tabular

/-- A maximal number of steps per piece. -/
structure LengthSplit where
  size : UInt64
  /-- Pieces differ by at most one step, the longer ones first. -/
  equal : Bool
  size_pos : 0 < size.toNat
deriving DecidableEq

namespace LengthSplit

/-- A split into pieces of at most `size` steps, of which there has to be one. -/
def ofSize (size : UInt64) (equal : Bool) : Except Error LengthSplit :=
  if h : size.toNat = 0 then .error (.split .zeroLength)
  else .ok ⟨size, equal, Nat.pos_of_ne_zero h⟩

def maxLength (s : LengthSplit) : Nat := s.size.toNat

/-- The number of pieces of at most `size` steps that `n` steps need. -/
def pieceCount (n size : Nat) : Nat :=
  if n % size = 0 then n / size else n / size + 1

/-- The lengths of the pieces of a sequence of `n` steps. -/
def pieceLengths (s : LengthSplit) (n : Nat) : List Nat :=
  if n ≤ s.maxLength then [n]
  else
    let pieces := pieceCount n s.maxLength
    if s.equal then
      (List.range pieces).map fun i => if i < n % pieces then n / pieces + 1 else n / pieces
    else
      (List.range pieces).map fun i =>
        if i + 1 < pieces then s.maxLength else n - s.maxLength * (pieces - 1)

/-- Cuts a list into pieces of given lengths. -/
def cut {α : Type} : List Nat → List α → List (List α)
  | [], _ => []
  | n :: rest, xs => xs.take n :: cut rest (xs.drop n)

/-- Cuts a sequence into pieces; an empty sequence is one empty piece. -/
def split {α : Type} (s : LengthSplit) (xs : List α) : List (List α) :=
  cut (s.pieceLengths xs.length) xs

def text (s : LengthSplit) : String :=
  "SplitMaxLengthSequence(maxSequenceLength=" ++ toString s.maxLength ++ ",equalSplits=" ++
    (if s.equal then "true" else "false") ++ ")"

end LengthSplit

end Tabular
