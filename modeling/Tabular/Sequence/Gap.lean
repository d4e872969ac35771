import Tabular.Schema
import Tabular.Value.Conversion

namespace Tabular

/-- The time column and the largest gap within a piece. -/
structure GapSplit where
  timeColumn : String
  maxGap : Int64
  maxGap_nonneg : 0 ≤ maxGap.toInt
deriving DecidableEq

namespace GapSplit

/-- A split with a gap of zero or more. -/
def ofGap (timeColumn : String) (maxGap : Int64) : Except Error GapSplit :=
  if h : 0 ≤ maxGap.toInt then .ok ⟨timeColumn, maxGap, h⟩
  else .error (.split (.negativeGap maxGap.toInt))

/-- The position of the time column, which has to hold integers or longs. -/
def timePosition (s : GapSplit) (schema : Schema) : Except Error Nat := do
  let (i, f) ← schema.requireColumn s.timeColumn
  if f.type = .integer ∨ f.type = .long then return i
  else throw (.typeMismatch (.timeColumn s.timeColumn) (.ofType f.type))

def timeOf (s : GapSplit) (position : Nat) (step : Row) : Except Error Int64 :=
  match step[position]? with
  | some (.integer n) => .ok n.toInt64
  | some (.long n) => .ok n
  | some v => .error (.typeMismatch (.timeValue s.timeColumn) (.value v))
  | none => .error (.schema (.timeColumn step.length position))

/-- Whether a step stays in the piece of the step before it. A gap beyond 64 bits counts as the
largest one. -/
def isClose (s : GapSplit) (before after : Int64) : Bool :=
  decide ((clampInt64 (after.toInt - before.toInt)).toInt ≤ s.maxGap.toInt)

/-- Cuts timed steps into pieces; no steps are one empty piece. -/
def pieces (s : GapSplit) (steps : List (Int64 × Row)) : List (List Row) :=
  match steps with
  | [] => [[]]
  | _ => (steps.splitBy fun p q => s.isClose p.1 q.1).map fun piece => piece.map Prod.snd

def split (s : GapSplit) (schema : Schema) (steps : List Row) : Except Error (List (List Row)) := do
  let position ← s.timePosition schema
  let timed ← steps.mapM fun step => (s.timeOf position step).map (·, step)
  return s.pieces timed

def text (s : GapSplit) : String :=
  "SplitTimeSeparation(timeColumn=\"" ++ s.timeColumn ++ "\",maxGap=" ++
    toString s.maxGap.toInt ++ ")"

end GapSplit

end Tabular
