import Tabular.Text.Inspection

namespace Tabular

/-- The extremes of the values seen so far. -/
structure Extremes (α : Type) where
  min : Option α
  max : Option α
  countMin : Nat
  countMax : Nat
deriving DecidableEq

namespace Extremes

variable {α : Type}

def empty : Extremes α := ⟨none, none, 0, 0⟩

/-- One more value against the best one so far; `better` is its order to a best one it replaces. -/
def observeOne (order : α → α → Ordering) (better : Ordering) (best : Option α) (count : Nat)
    (v : α) : Option α × Nat :=
  match best with
  | none => (some v, 1)
  | some m =>
    let o := order v m
    if o = .eq then (some m, count + 1)
    else if o = better then (some v, 1)
    else (some m, count)

def observe (order : α → α → Ordering) (e : Extremes α) (v : α) : Extremes α :=
  let low := observeOne order .lt e.min e.countMin v
  let high := observeOne order .gt e.max e.countMax v
  ⟨low.1, high.1, low.2, high.2⟩

/-- The better of two best values; equal ones are counted together. -/
def mergeOne (order : α → α → Ordering) (better : Ordering) :
    Option α × Nat → Option α × Nat → Option α × Nat
  | (none, _), b => b
  | a, (none, _) => a
  | (some x, m), (some y, n) =>
    let o := order x y
    if o = .eq then (some x, m + n)
    else if o = better then (some x, m)
    else (some y, n)

def merge (order : α → α → Ordering) (a b : Extremes α) : Extremes α :=
  let low := mergeOne order .lt (a.min, a.countMin) (b.min, b.countMin)
  let high := mergeOne order .gt (a.max, a.countMax) (b.max, b.countMax)
  ⟨low.1, high.1, low.2, high.2⟩

def inspect (text : α → String) (e : Extremes α) : String :=
  inspectFields "Extremes" [("min", inspectOption (e.min.map text)),
    ("max", inspectOption (e.max.map text)), ("count_min", toString e.countMin),
    ("count_max", toString e.countMax)]

end Extremes

end Tabular
