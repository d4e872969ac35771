import Tabular.Statistics.Double
import Tabular.Statistics.Text

namespace Tabular

/-- The statistics that fit the type of a column. -/
inductive CounterState where
  | integer (c : IntegerCounter)
  | double (c : DoubleCounter)
  | string (c : StringCounter)
  | categorical (c : CategoricalCounter)
  | bytes (c : BytesCounter)
  | boolean (c : BooleanCounter)
deriving DecidableEq

namespace CounterState

def ofType : ColumnType → CounterState
  | .integer | .long | .byte => .integer .empty
  | .float | .double => .double .empty
  | .string => .string .empty
  | .categorical => .categorical .empty
  | .bytes => .bytes .empty
  | .boolean => .boolean .empty

def inspect : CounterState → String
  | integer c => inspectApply "Integer" c.inspect
  | double c => inspectApply "Double" c.inspect
  | string c => inspectApply "String" c.inspect
  | categorical c => inspectApply "Categorical" c.inspect
  | bytes c => inspectApply "Bytes" c.inspect
  | boolean c => inspectApply "Boolean" c.inspect

/-- One more value of the column. -/
def add (s : CounterState) (v : Value) : Except Error CounterState :=
  match s, v with
  | integer c, .null _ => .ok (.integer (c.add none))
  | integer c, v => do return .integer (c.add (some (← v.toInt64)))
  | double c, .null _ => .ok (.double (c.add none))
  | double c, v => do return .double (c.add (some (← v.toDouble)))
  | string c, .string t => .ok (.string (c.add (some t)))
  | string c, _ => .ok (.string (c.add none))
  | categorical c, .string t => .ok (.categorical (c.add (some t)))
  | categorical c, _ => .ok (.categorical (c.add none))
  | bytes c, .bytes data => .ok (.bytes (c.add (some data)))
  | bytes c, _ => .ok (.bytes (c.add none))
  | boolean c, .boolean b => .ok (.boolean (c.add (some b)))
  | boolean c, _ => .ok (.boolean (c.add none))

def merge : CounterState → CounterState → Except Error CounterState
  | integer a, integer b => .ok (.integer (a.merge b))
  | double a, double b => .ok (.double (a.merge b))
  | string a, string b => .ok (.string (a.merge b))
  | categorical a, categorical b => .ok (.categorical (a.merge b))
  | bytes a, bytes b => .ok (.bytes (a.merge b))
  | boolean a, boolean b => .ok (.boolean (a.merge b))
  | a, b => .error (.unsupported (.counterMerge a.inspect b.inspect))

end CounterState

structure Counter where
  type : ColumnType
  state : CounterState
deriving DecidableEq

namespace Counter

def ofType (type : ColumnType) : Counter := ⟨type, .ofType type⟩

def accepts (c : Counter) (v : Value) : Bool := c.type.accepts v

/-- One more value, which the column has to accept. -/
def add (c : Counter) (v : Value) : Except Error Counter :=
  if c.accepts v then (c.state.add v).map fun state => { c with state := state }
  else .error (.typeMismatch (.ofType c.type) (.value v))

/-- One more value in place: the outcome, and what the counter holds after it. -/
def advance (c : Counter) (v : Value) : Except Error Unit × Counter :=
  match c.add v with
  | .ok next => (.ok (), next)
  | .error e => (.error e, c)

/-- The statistics of two collections together; the types have to be equal. -/
def merge (a b : Counter) : Except Error Counter :=
  if a.type = b.type then (a.state.merge b.state).map fun state => { a with state := state }
  else .error (.typeMismatch (.counter a.type) (.counter b.type))

def report (c : Counter) : ColumnReport :=
  match c.state with
  | .integer s => .integer (s.report c.type)
  | .double s => .double (s.report c.type)
  | .string s => .string s.report
  | .categorical s => .categorical s.report
  | .bytes s => .bytes s.report
  | .boolean s => .boolean s.report

def inspect (c : Counter) : String :=
  inspectFields "AnalysisCounter" [("column_type", c.type.storageName),
    ("state", c.state.inspect)]

end Counter

end Tabular
