import Tabular.Reduction.Accumulator

namespace Tabular

/-- The key columns, the reductions asked for by column, and one for all other columns. -/
structure Grouping where
  keys : List String
  default : Option Reduction
  reductions : List (String × Reduction)
deriving DecidableEq

/-- A reduction of the column at a position. -/
structure PlannedReduction where
  position : Nat
  reduction : Reduction
  input : Field
  output : ColumnType
deriving DecidableEq

/-- A grouping worked out for a schema. -/
structure GroupingPlan where
  keys : List Nat
  reduced : List PlannedReduction
  schema : Schema
deriving DecidableEq

def PlannedReduction.field (p : PlannedReduction) : Field :=
  ⟨p.reduction.name ++ "(" ++ p.input.name ++ ")", p.output⟩

/-- The rows of one key so far. -/
structure Group where
  key : List (Option Key)
  values : Row
  accumulators : List Accumulator

namespace Grouping

/-- The reductions of a column: those asked for, or else the default one. -/
def reductionsOf (g : Grouping) (column : String) : List Reduction :=
  match (g.reductions.filter (·.1 == column)).map Prod.snd with
  | [] => g.default.toList
  | reductions => reductions

/-- A reduced column has to be there and must not be a key. -/
def checkReduced (schema : Schema) (keys : List Nat) (column : String) : Except Error Unit := do
  if keys.contains (← schema.requireIndex column) then
    throw (.argument (.reducedKey column))

def planColumn (g : Grouping) (position : Nat) (f : Field) :
    Except Error (List PlannedReduction) :=
  (g.reductionsOf f.name).mapM fun r => (r.outputType f.type).map (⟨position, r, f, ·⟩)

def plan (g : Grouping) (schema : Schema) : Except Error GroupingPlan := do
  if g.keys.isEmpty then
    throw (.argument .noGroupKeys)
  let keys ← g.keys.mapM schema.requireIndex
  g.reductions.forM fun p => checkReduced schema keys p.1
  let others := schema.fields.zipIdx.filter fun p => !keys.contains p.2
  let reduced ← others.mapM fun p => g.planColumn p.2 p.1
  let fields := keys.filterMap (schema.fields[·]?) ++ reduced.flatten.map PlannedReduction.field
  return ⟨keys, reduced.flatten, ← Schema.ofFields fields⟩

def outputSchema (g : Grouping) (schema : Schema) : Except Error Schema :=
  (g.plan schema).map GroupingPlan.schema

end Grouping

namespace GroupingPlan

/-- The key of a row; a missing part is a part of its own. -/
def keyOf (p : GroupingPlan) (row : Row) : List (Option Key) :=
  (Row.pick row p.keys).map Key.of?

def newGroup (p : GroupingPlan) (row : Row) : Group :=
  ⟨p.keyOf row, Row.pick row p.keys,
    p.reduced.map fun r => Accumulator.start r.reduction r.input.type⟩

def addValues : List Accumulator → Row → Except Error (List Accumulator)
  | acc :: accs, v :: values => do return (← acc.add v) :: (← addValues accs values)
  | accs, _ => .ok accs

def addToGroup (p : GroupingPlan) (row : Row) (g : Group) : Except Error Group := do
  let values := Row.pick row (p.reduced.map PlannedReduction.position)
  return { g with accumulators := ← addValues g.accumulators values }

/-- Adds a row to the group of its key; a new key starts a group at the end. -/
def addRow (p : GroupingPlan) (row : Row) : List Group → Except Error (List Group)
  | [] => do return [← p.addToGroup row (p.newGroup row)]
  | g :: rest => do
    if g.key = p.keyOf row then return (← p.addToGroup row g) :: rest
    else return g :: (← addRow p row rest)

def finish (p : GroupingPlan) (g : Group) : Row :=
  g.values ++ (g.accumulators.zip p.reduced).map fun q => q.1.finish q.2.output

end GroupingPlan

/-- Groups the rows of a dataset, which have to fit its schema, and reduces each group. -/
def Dataset.reduceByKey (d : Dataset) (g : Grouping) : Except Error Dataset := do
  let p ← g.plan d.schema
  let groups ← d.rows.foldlM (fun groups row => do
    d.schema.validateRow row
    p.addRow row groups) []
  return ⟨p.schema, groups.map p.finish⟩

end Tabular
