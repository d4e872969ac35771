import Std.Data.HashMap
import Tabular.Dataset
import Tabular.Join.Basic
import Tabular.Run.Log
import Tabular.Value.Key

namespace Tabular.Join

/-- A row of one side has a value for each column of its schema. -/
def checkWidth (side : Side) (schema : Schema) (row : Row) : Except Error Unit :=
  if row.length = schema.size then .ok ()
  else .error (.schema (.joinedRow side row.length schema.size))

/-- A left and a right row side by side; the columns of an absent side are missing values. -/
def leftOf (j : Join) (row : Row) (partner : Option Row) : Row :=
  Row.pick row j.leftKeys ++ Row.pick row j.leftRest ++
    match partner with
    | some r => Row.pick r j.rightRest
    | none => j.right.nullsAt j.rightRest

def rightOf (j : Join) (row : Row) : Row :=
  Row.pick row j.rightKeys ++ j.left.nullsAt j.leftRest ++ Row.pick row j.rightRest

/-- The joined row of two rows, at least one of which is there. The rows are taken to agree on their
keys. -/
def combine (j : Join) (left right : Option Row) : Except Error Row := do
  left.forM (checkWidth .left j.left)
  right.forM (checkWidth .right j.right)
  match left, right with
  | some l, r => return j.leftOf l r
  | none, some r => return j.rightOf r
  | none, none => throw (.argument .noRows)

/-- The key of a row, unless one of its parts is missing. -/
def keyOf? (positions : List Nat) (row : Row) : Option (List Key) :=
  positions.mapM fun i => row[i]?.bind Key.of?

/-- The right rows of each key, with their positions. -/
abbrev Index := Std.HashMap (List Key) (Array (Row × Nat))

def Index.add (positions : List Nat) (index : Index) (row : Row × Nat) : Index :=
  match keyOf? positions row.1 with
  | some key => index.insert key ((index.getD key #[]).push row)
  | none => index

def Index.ofRows (positions : List Nat) (rows : List Row) : Index :=
  rows.zipIdx.foldl (Index.add positions) ∅

def Index.lookup (positions : List Nat) (index : Index) (row : Row) : List (Row × Nat) :=
  match keyOf? positions row with
  | some key => (index.getD key #[]).toList
  | none => []

/-- The joined rows of one left row, given its matches. -/
def rowsOf (j : Join) (row : Row) : List (Row × Nat) → List Row
  | [] => if j.type.keepsLeft then [j.leftOf row none] else []
  | found => found.map fun p => j.leftOf row (some p.1)

def mark (flags : Array Bool) (found : List (Row × Nat)) : Array Bool :=
  found.foldl (fun flags p => flags.setIfInBounds p.2 true) flags

/-- The joined rows of two lists of rows of the right widths. -/
def joined (j : Join) (left right : List Row) : List Row :=
  let index := Index.ofRows j.rightKeys right
  let found := left.map fun row => (row, Index.lookup j.leftKeys index row)
  let matched := found.foldl (fun flags p => mark flags p.2) (Array.replicate right.length false)
  let unmatched := (right.zip matched.toList).filter fun p => !p.2
  found.flatMap (fun p => j.rowsOf p.1 p.2) ++
    if j.type.keepsRight then unmatched.map fun p => j.rightOf p.1 else []

/-- Joins two lists of rows; widths are checked first, on the right and then on the left. -/
def execute (j : Join) (left right : List Row) : Except Error (List Row) := do
  right.forM (checkWidth .right j.right)
  left.forM (checkWidth .left j.left)
  return j.joined left right

/-- What a join reports: its inputs at once, and its result if there is one. -/
def log (j : Join) (left right : List Row) : List LogRecord :=
  ⟨.debug, "join " ++ j.type.name ++ ": " ++ toString left.length ++ " left rows, " ++
    toString right.length ++ " right rows, keys " ++
    inspectList (j.leftKeyColumns.map inspectText)⟩ ::
  match j.execute left right with
  | .ok rows =>
    [⟨.trace, "join " ++ j.type.name ++ " produced " ++ toString rows.length ++ " rows"⟩]
  | .error _ => []

def datasets (j : Join) (left right : Dataset) : Except Error Dataset := do
  if j.left ≠ left.schema then
    throw (.schema (.joinedDataset .left))
  if j.right ≠ right.schema then
    throw (.schema (.joinedDataset .right))
  return ⟨j.output, ← j.execute left.rows right.rows⟩

end Tabular.Join
