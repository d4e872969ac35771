import Tabular.Dataset
import Tabular.Value.Key

namespace Tabular

/-- The type of a reduced column; sums and means need numbers, extremes need an order. -/
def Reduction.outputType (r : Reduction) (input : ColumnType) : Except Error ColumnType :=
  let numeric (output : ColumnType) : Except Error ColumnType :=
    if input.isNumeric then .ok output
    else .error (.typeMismatch (.numericColumn r) (.ofType input))
  let ordered : Except Error ColumnType :=
    if input = .bytes then .error (.typeMismatch (.orderedColumn r) (.ofType input))
    else .ok input
  match r with
  | .count | .countUnique => .ok .long
  | .sum => numeric (if input.isFloating then .double else .long)
  | .mean => numeric .double
  | .min | .max => ordered
  | .first | .last => .ok input

/-- What a reduction remembers of the values so far. -/
inductive Accumulator where
  | count (n : Nat)
  | countUnique (seen : List Key)
  | wholeSum (sum : Option Int64)
  | realSum (sum : Option Double)
  | mean (sum : Double) (n : Nat)
  /-- A value takes over from the best one if it stands to it in the order `keep`. -/
  | extreme (keep : Ordering) (best : Option Value)
  | first (v : Option Value)
  | last (v : Option Value)

namespace Accumulator

def start (r : Reduction) (input : ColumnType) : Accumulator :=
  match r with
  | .count => .count 0
  | .countUnique => .countUnique []
  | .sum => if input.isFloating then .realSum none else .wholeSum none
  | .mean => .mean .zero 0
  | .min => .extreme .lt none
  | .max => .extreme .gt none
  | .first => .first none
  | .last => .last none

/-- The sum of two integers, unless it leaves 64 bits. -/
def addChecked (a b : Int64) : Except Error Int64 :=
  let sum := a.toInt + b.toInt
  if -0x8000000000000000 ≤ sum ∧ sum < 0x8000000000000000 then .ok (Int64.ofInt sum)
  else .error (.numericOverflow (.sum a.toInt b.toInt) .long)

/-- One more value that is not missing. -/
def addPresent (acc : Accumulator) (v : Value) : Except Error Accumulator :=
  match acc with
  | count n => .ok (.count (n + 1))
  | countUnique seen =>
    .ok (.countUnique (match Key.of? v with
      | some key => seen.insert key
      | none => seen))
  | wholeSum none => do return .wholeSum (some (← v.toInt64))
  | wholeSum (some a) => do return .wholeSum (some (← addChecked a (← v.toInt64)))
  | realSum sum => do return .realSum (some ((sum.getD .zero).add (← v.toDouble)))
  | mean sum n => do return .mean (sum.add (← v.toDouble)) (n + 1)
  | extreme keep none => .ok (.extreme keep (some v))
  | extreme keep (some best) => do
    return .extreme keep (some (if (← v.compare best) = keep then v else best))
  | first none => .ok (.first (some v))
  | first (some u) => .ok (.first (some u))
  | last _ => .ok (.last (some v))

def add (acc : Accumulator) (v : Value) : Except Error Accumulator :=
  match acc with
  | count n => .ok (.count (n + 1))
  | _ => if v.isNull then .ok acc else acc.addPresent v

def finish (acc : Accumulator) (output : ColumnType) : Value :=
  match acc with
  | count n => .long (Int64.ofNat n)
  | countUnique seen => .long (Int64.ofNat seen.length)
  | wholeSum sum => (sum.map .long).getD (.null output)
  | realSum sum => (sum.map .double).getD (.null output)
  | mean sum n => if n = 0 then .null output else .double (sum.div (.ofInt n))
  | extreme _ v | first v | last v => v.getD (.null output)

end Accumulator

/-- The value of the column to be reduced. -/
def Row.reducedCell (row : Row) (position : Nat) (column : String) : Except Error Value :=
  match row[position]? with
  | some v => .ok v
  | none => .error (.schema (.reducedColumn row.length position column))

def Dataset.reduce (d : Dataset) (column : String) (r : Reduction) : Except Error Value := do
  let (i, f) ← d.schema.requireColumn column
  let output ← r.outputType f.type
  let acc ← d.rows.foldlM (fun acc row => do acc.add (← Row.reducedCell row i column))
    (Accumulator.start r f.type)
  return acc.finish output

end Tabular
