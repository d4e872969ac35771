import Tabular.Dataset

namespace Tabular

/-- The rows from `start` up to, but not including, `stop`. -/
structure Chunk where
  start : Nat
  stop : Nat
deriving DecidableEq

namespace Chunk

def size (c : Chunk) : Nat := c.stop - c.start

def rows (c : Chunk) (all : List Row) : List Row := (all.drop c.start).take c.size

/-- The chunks of `count` rows. -/
def ranges (count size : Nat) : List Chunk :=
  (List.range ((count + (size - 1)) / size)).map fun i =>
    ⟨i * size, min (i * size + size) count⟩

end Chunk

end Tabular
