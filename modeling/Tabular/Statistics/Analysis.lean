import Tabular.Dataset
import Tabular.Statistics.Counter

namespace Tabular

structure Analysis where
  counters : List Counter
deriving DecidableEq

namespace Analysis

def ofSchema (schema : Schema) : Analysis := ⟨schema.types.map Counter.ofType⟩

def addValues : List Counter → Row → Except Error (List Counter)
  | c :: counters, v :: row => do return (← c.add v) :: (← addValues counters row)
  | counters, _ => .ok counters

/-- One more row; it is checked as a whole before any counter moves. -/
def addRow (a : Analysis) (row : Row) : Except Error Analysis :=
  if row.length ≠ a.counters.length then
    .error (.schema (.analysisRow row.length a.counters.length))
  else
    match (a.counters.zip row).find? fun p => !p.1.accepts p.2 with
    | some (c, v) => .error (.typeMismatch (.ofType c.type) (.value v))
    | none => (addValues a.counters row).map Analysis.mk

/-- One more value for each counter in place, from the first to the last; those after a counter that
fails do not move, those before it have moved. -/
def advanceEach : List Counter → Row → Except Error Unit × List Counter
  | c :: counters, v :: row =>
    match c.advance v with
    | (.ok (), next) =>
      let rest := advanceEach counters row
      (rest.1, next :: rest.2)
    | (.error e, next) => (.error e, next :: counters)
  | counters, _ => (.ok (), counters)

/-- One more row in place: the outcome, and what the analysis holds after it. -/
def advance (a : Analysis) (row : Row) : Except Error Unit × Analysis :=
  if row.length ≠ a.counters.length then
    (.error (.schema (.analysisRow row.length a.counters.length)), a)
  else
    match (a.counters.zip row).find? fun p => !p.1.accepts p.2 with
    | some (c, v) => (.error (.typeMismatch (.ofType c.type) (.value v)), a)
    | none =>
      let rest := advanceEach a.counters row
      (rest.1, ⟨rest.2⟩)

def mergeCounters : List Counter → List Counter → Except Error (List Counter)
  | c :: cs, d :: ds => do return (← c.merge d) :: (← mergeCounters cs ds)
  | _, _ => .ok []

/-- The analyses of two parts of a table together. -/
def merge (a b : Analysis) : Except Error Analysis :=
  if a.counters.length ≠ b.counters.length then
    .error (.schema (.analysisMerge a.counters.length b.counters.length))
  else (mergeCounters a.counters b.counters).map Analysis.mk

/-- The report under a schema whose columns have the types of the counters. -/
def report (a : Analysis) (schema : Schema) : Except Error Report :=
  if schema.size ≠ a.counters.length then
    .error (.schema (.analysisReport schema.size a.counters.length))
  else
    match (schema.fields.zip a.counters).find? fun p => p.1.type != p.2.type with
    | some (f, c) => .error (.typeMismatch (.forColumn f.type f.name) (.ofType c.type))
    | none => .ok ⟨schema, a.counters.map Counter.report⟩

/-- One more row of a part that may not have an analysis yet. -/
def fold (a : Option Analysis) (schema : Schema) (row : Row) : Except Error Analysis :=
  (a.getD (ofSchema schema)).addRow row

/-- All rows of a part after what the part holds so far. -/
def foldRows (a : Option Analysis) (schema : Schema) (rows : List Row) :
    Except Error (Option Analysis) :=
  rows.foldlM (fun a row => (fold a schema row).map some) a

/-- The analyses of two parts; a part without one is empty. -/
def mergeParts (a b : Option Analysis) : Except Error (Option Analysis) :=
  match a, b with
  | some a, some b => (a.merge b).map some
  | some a, none => .ok (some a)
  | none, b => .ok b

end Analysis

def Dataset.analyze (d : Dataset) : Except Error Report := do
  (← d.rows.foldlM Analysis.addRow (Analysis.ofSchema d.schema)).report d.schema

end Tabular
