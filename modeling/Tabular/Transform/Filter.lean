import Tabular.Condition.Basic
import Tabular.Dataset

namespace Tabular

/-- The rows on which a condition gives the answer `keep`; the first row it cannot be evaluated on
ends the filter. -/
def BoundCondition.select (b : BoundCondition) (keep : Bool) :
    List Row → Except Error (List Row)
  | [] => .ok []
  | row :: rest => do
    let answer ← b.evaluateRow row
    let kept ← select b keep rest
    return if answer = keep then row :: kept else kept

namespace Dataset

def filterRows (d : Dataset) (p : Row → Bool) : Dataset :=
  { d with rows := d.rows.filter p }

/-- The rows on which a condition gives the answer `keep`. -/
def retain (d : Dataset) (c : Condition) (keep : Bool) : Except Error Dataset := do
  let b ← c.bind d.schema
  return { d with rows := ← b.select keep d.rows }

def filterWhere (d : Dataset) (c : Condition) : Except Error Dataset := d.retain c true

def removeWhere (d : Dataset) (c : Condition) : Except Error Dataset := d.retain c false

end Dataset

end Tabular
