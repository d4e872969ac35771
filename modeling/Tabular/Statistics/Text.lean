import Tabular.Binary.Arithmetic
import Tabular.Statistics.Extremes
import Tabular.Statistics.Report

namespace Tabular

def orderNat (a b : Nat) : Ordering := compare a b

structure StringCounter where
  total : Nat
  missing : Nat
  empties : Nat
  lengths : Extremes Nat
  /-- The lengths together, in a word that wraps around. -/
  sumLength : UInt64
deriving DecidableEq

namespace StringCounter

def empty : StringCounter := ⟨0, 0, 0, .empty, 0⟩

def add (c : StringCounter) : Option String → StringCounter
  | none => { c with total := c.total + 1, missing := c.missing + 1 }
  | some s =>
    { total := c.total + 1
      missing := c.missing
      empties := if s.length = 0 then c.empties + 1 else c.empties
      lengths := c.lengths.observe orderNat s.length
      sumLength := c.sumLength + .ofNat s.length }

def merge (a b : StringCounter) : StringCounter where
  total := a.total + b.total
  missing := a.missing + b.missing
  empties := a.empties + b.empties
  lengths := a.lengths.merge orderNat b.lengths
  sumLength := a.sumLength + b.sumLength

def present (c : StringCounter) : Nat := c.total - c.missing

def report (c : StringCounter) : StringReport where
  total := c.total
  missing := c.missing
  empty := c.empties
  minLength := c.lengths.min
  maxLength := c.lengths.max
  countMinLength := c.lengths.countMin
  countMaxLength := c.lengths.countMax
  sumLength := c.sumLength
  meanLength := if c.present = 0 then none
    else some ((Binary.ofInt c.sumLength.toNat : Double).div (.ofInt c.present))

def inspect (c : StringCounter) : String :=
  inspectFields "StringCounter" [("count_total", toString c.total),
    ("count_null", toString c.missing), ("count_empty", toString c.empties),
    ("lengths", c.lengths.inspect toString), ("sum_length", toString c.sumLength)]

end StringCounter

/-- Adds to the count of a label; labels stay in ascending order. -/
def addCount (label : String) (n : Nat) : List (String × Nat) → List (String × Nat)
  | [] => [(label, n)]
  | (other, m) :: rest =>
    match compare label other with
    | .lt => (label, n) :: (other, m) :: rest
    | .eq => (other, m + n) :: rest
    | .gt => (other, m) :: addCount label n rest

structure CategoricalCounter where
  missing : Nat
  counts : List (String × Nat)
deriving DecidableEq

namespace CategoricalCounter

def empty : CategoricalCounter := ⟨0, []⟩

def add (c : CategoricalCounter) : Option String → CategoricalCounter
  | none => { c with missing := c.missing + 1 }
  | some label => { c with counts := addCount label 1 c.counts }

def merge (a b : CategoricalCounter) : CategoricalCounter where
  missing := a.missing + b.missing
  counts := b.counts.foldl (fun counts p => addCount p.1 p.2 counts) a.counts

def report (c : CategoricalCounter) : CategoricalReport where
  total := c.counts.foldl (fun n p => n + p.2) c.missing
  missing := c.missing
  counts := c.counts

def inspect (c : CategoricalCounter) : String :=
  inspectFields "CategoricalCounter" [("count_null", toString c.missing),
    ("counts", inspectMap (c.counts.map fun p => (inspectText p.1, toString p.2)))]

end CategoricalCounter

structure BytesCounter where
  total : Nat
  missing : Nat
  /-- The lengths together, in a word that wraps around. -/
  bytes : UInt64
  lengths : Extremes Nat
deriving DecidableEq

namespace BytesCounter

def empty : BytesCounter := ⟨0, 0, 0, .empty⟩

def add (c : BytesCounter) : Option (List UInt8) → BytesCounter
  | none => { c with total := c.total + 1, missing := c.missing + 1 }
  | some data =>
    { total := c.total + 1
      missing := c.missing
      bytes := c.bytes + .ofNat data.length
      lengths := c.lengths.observe orderNat data.length }

def merge (a b : BytesCounter) : BytesCounter where
  total := a.total + b.total
  missing := a.missing + b.missing
  bytes := a.bytes + b.bytes
  lengths := a.lengths.merge orderNat b.lengths

def report (c : BytesCounter) : BytesReport where
  total := c.total
  missing := c.missing
  bytes := c.bytes
  minLength := c.lengths.min
  maxLength := c.lengths.max

def inspect (c : BytesCounter) : String :=
  inspectFields "BytesCounter" [("count_total", toString c.total),
    ("count_null", toString c.missing), ("total_bytes", toString c.bytes),
    ("lengths", c.lengths.inspect toString)]

end BytesCounter

structure BooleanCounter where
  true : Nat
  false : Nat
  missing : Nat
deriving DecidableEq

namespace BooleanCounter

def empty : BooleanCounter := ⟨0, 0, 0⟩

def add (c : BooleanCounter) : Option Bool → BooleanCounter
  | none => { c with missing := c.missing + 1 }
  | some .true => { c with true := c.true + 1 }
  | some .false => { c with false := c.false + 1 }

def merge (a b : BooleanCounter) : BooleanCounter where
  true := a.true + b.true
  false := a.false + b.false
  missing := a.missing + b.missing

def report (c : BooleanCounter) : BooleanReport where
  total := c.true + c.false + c.missing
  true := c.true
  false := c.false
  missing := c.missing

def inspect (c : BooleanCounter) : String :=
  inspectFields "BooleanCounter" [("count_true", toString c.true),
    ("count_false", toString c.false), ("count_null", toString c.missing)]

end BooleanCounter

end Tabular
