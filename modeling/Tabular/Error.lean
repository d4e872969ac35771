import Tabular.Condition.Operator
import Tabular.Reduction.Operation
import Tabular.Value.Text

namespace Tabular

/-- What a place asks for. -/
inductive Expected where
  | ofType (type : ColumnType)
  | forColumn (type : ColumnType) (column : String)
  | conditionColumn (type : ColumnType) (condition : String)
  | timeColumn (column : String)
  | timeValue (column : String)
  | counter (type : ColumnType)
  | numericColumn (reduction : Reduction)
  | orderedColumn (reduction : Reduction)
deriving DecidableEq

/-- What stands there instead. -/
inductive Found where
  | value (v : Value)
  | ofType (type : ColumnType)
  | column (type : ColumnType) (name : String)
  | counter (type : ColumnType)
deriving DecidableEq

/-- A number too large for its place. -/
inductive Amount where
  | value (v : Value)
  | whole (n : Int)
  | sum (a b : Int)
deriving DecidableEq

inductive Side where
  | left
  | right
deriving DecidableEq

/-- Why a schema, or a row against a schema, is refused. -/
inductive SchemaFault where
  | emptyName
  | repeatedName (name : String)
  | rowWidth (values columns : Nat)
  | conditionColumn (values position : Nat) (column : String)
  | reducedColumn (values position : Nat) (column : String)
  | timeColumn (values position : Nat)
  | joinedRow (side : Side) (values columns : Nat)
  | joinedDataset (side : Side)
  | analysisRow (values columns : Nat)
  | analysisMerge (left right : Nat)
  | analysisReport (schema columns : Nat)
deriving DecidableEq

inductive JoinFault where
  | noKeys
  | keyCounts (left right : List String)
  | missingKeys (columns : List String)
  | repeatedKey (column : String)
  | keyTypes (pairs : List ((String × ColumnType) × (String × ColumnType)))
  | nameCollision (columns : List String)
deriving DecidableEq

/-- Why the condition on a column is refused. -/
inductive ConditionFault where
  | needsSet (op : Operator)
  | needsScalar (op : Operator)
  | unordered (op : Operator) (type : ColumnType)
  | bytesOperand
  | operandKind (operand : Value) (type : ColumnType)
deriving DecidableEq

inductive SplitFault where
  | zeroLength
  | negativeGap (gap : Int)
deriving DecidableEq

inductive ArgumentFault where
  | noRows
  | noGroupKeys
  | reducedKey (column : String)
  | zeroChunkSize
  | zeroInFlight
  | zeroThreads
deriving DecidableEq

/-- Why a definition of the right shape is refused. -/
inductive DefinitionFault where
  | unknownType (tag : String)
  | notAValue (text : String) (type : ColumnType)
  | twoOperands (column : String)
  | noOperand (column : String)
deriving DecidableEq

/-- A case that is recognised but not supported. -/
inductive Unsupported where
  | scalarComparison (op : Operator)
  | sequenceEvaluation (condition : String)
  | counterMerge (left right : String)
deriving DecidableEq

inductive Error where
  | typeMismatch (expected : Expected) (found : Found)
  | notNumeric (found : Value)
  | numericOverflow (amount : Amount) (target : ColumnType)
  | join (fault : JoinFault)
  | condition (column : String) (fault : ConditionFault)
  | untypedSet
  | split (fault : SplitFault)
  | schema (fault : SchemaFault)
  | columnNotFound (column : String)
  | argument (fault : ArgumentFault)
  | definition (fault : DefinitionFault)
  /-- A definition that holds a refused schema. -/
  | schemaDefinition (fault : SchemaFault)
  /-- A definition without the shape of what it should define. -/
  | malformedDefinition
  | unsupported (what : Unsupported)
  /-- An access beyond the end of a row: the run stops there instead of reporting a fault. -/
  | outsideRow (position width : Nat)
deriving DecidableEq

def Expected.text : Expected → String
  | ofType t => t.tag
  | forColumn t column => t.tag ++ " for column '" ++ column ++ "'"
  | conditionColumn t condition => t.tag ++ " column for " ++ condition
  | timeColumn column => "integer time column '" ++ column ++ "'"
  | timeValue column => "time value in column '" ++ column ++ "'"
  | counter t => t.tag ++ " counter"
  | numericColumn r => "numeric column for " ++ r.name
  | orderedColumn r => "ordered column for " ++ r.name

def Found.text : Found → String
  | value v => v.describe
  | ofType t => t.tag
  | column t name => t.tag ++ " column '" ++ name ++ "'"
  | counter t => t.tag ++ " counter"

def Amount.text : Amount → String
  | value v => v.text
  | whole n => toString n
  | sum a b => toString a ++ " + " ++ toString b

def Side.name : Side → String
  | left => "left"
  | right => "right"

def SchemaFault.text : SchemaFault → String
  | emptyName => "column names must not be empty"
  | repeatedName name => "duplicate column name '" ++ name ++ "'"
  | rowWidth values columns =>
    "row has " ++ toString values ++ " values but schema has " ++ toString columns ++ " columns"
  | conditionColumn values position column =>
    "row has " ++ toString values ++ " values, condition reads column " ++ toString position ++
      " ('" ++ column ++ "')"
  | reducedColumn values position column =>
    "row has " ++ toString values ++ " values, '" ++ column ++ "' is column " ++ toString position
  | timeColumn values position =>
    "sequence step has " ++ toString values ++ " values, time column is at index " ++
      toString position
  | joinedRow side values columns =>
    side.name ++ " row has " ++ toString values ++ " values, " ++ side.name ++ " schema has " ++
      toString columns ++ " columns"
  | joinedDataset side =>
    side.name ++ " dataset schema differs from the join's " ++ side.name ++ " schema"
  | analysisRow values columns =>
    "row has " ++ toString values ++ " values but the analysis tracks " ++ toString columns ++
      " columns"
  | analysisMerge left right =>
    "cannot merge analyses over " ++ toString left ++ " and " ++ toString right ++ " columns"
  | analysisReport schema columns =>
    "schema has " ++ toString schema ++ " columns but the analysis tracks " ++ toString columns

def JoinFault.text : JoinFault → String
  | noKeys => "at least one join column is required"
  | keyCounts left right =>
    "left side names " ++ toString left.length ++ " join columns but right side names " ++
      toString right.length
  | missingKeys _ => "join columns must exist in both schemas"
  | repeatedKey _ => "join column listed more than once"
  | keyTypes _ => "join column types differ between schemas"
  | nameCollision _ => "non-key column names collide in the joined schema"

/-- A column with its type in parentheses. -/
def typedColumnText (column : String × ColumnType) : String :=
  column.1 ++ " (" ++ column.2.tag ++ ")"

/-- The columns that a refused join is about. -/
def JoinFault.columns : JoinFault → List String
  | noKeys => []
  | keyCounts left right => left ++ right
  | missingKeys columns => columns
  | repeatedKey column => [column]
  | keyTypes pairs => pairs.map fun p => typedColumnText p.1 ++ " / " ++ typedColumnText p.2
  | nameCollision columns => columns

def ConditionFault.text : ConditionFault → String
  | needsSet op => op.name ++ " requires a set operand"
  | needsScalar op => op.name ++ " requires a scalar operand, not a set"
  | unordered op t => op.name ++ " is not supported for " ++ t.tag ++ " operands"
  | bytesOperand => "byte array operands are not supported"
  | operandKind v t => "operand " ++ v.describe ++ " is not a " ++ t.tag ++ " value"

def SplitFault.text : SplitFault → String
  | zeroLength => "maxSequenceLength must be at least 1"
  | negativeGap gap => "max gap must be non-negative, got " ++ toString gap

def ArgumentFault.text : ArgumentFault → String
  | noRows => "join_examples needs at least one of the left and right rows"
  | noGroupKeys => "a reducer needs at least one key column"
  | reducedKey column => "key column '" ++ column ++ "' cannot also be reduced"
  | zeroChunkSize => "chunk_size must be > 0"
  | zeroInFlight => "max_in_flight_chunks must be > 0"
  | zeroThreads => "num_threads must be > 0 when set"

def DefinitionFault.text : DefinitionFault → String
  | unknownType tag => "unknown column type tag '" ++ tag ++ "'"
  | notAValue text t => text ++ " is not a valid " ++ t.tag ++ " value"
  | twoOperands column => "condition on '" ++ column ++ "' has both a value and a set"
  | noOperand column => "condition on '" ++ column ++ "' has no operand"

def Unsupported.text : Unsupported → String
  | scalarComparison op => "scalar comparison for " ++ op.name
  | sequenceEvaluation condition =>
    "sequence evaluation of " ++ condition ++ " (NoSequenceMode)"
  | counterMerge left right => "merging counter states " ++ left ++ " and " ++ right

def Error.message : Error → String
  | typeMismatch expected found =>
    "type mismatch: expected " ++ expected.text ++ ", found " ++ found.text
  | notNumeric found => "value is not numeric: " ++ found.describe
  | numericOverflow amount target =>
    "numeric value " ++ amount.text ++ " out of range for " ++ target.tag
  | join fault =>
    "invalid join: " ++ fault.text ++ " (columns: " ++
      inspectList (fault.columns.map inspectText) ++ ")"
  | condition column fault => "invalid condition: column '" ++ column ++ "': " ++ fault.text
  | untypedSet => "invalid condition: cannot infer the operand type of an empty set"
  | split fault => "invalid sequence split: " ++ fault.text
  | schema fault => "schema mismatch: " ++ fault.text
  | columnNotFound column => "column '" ++ column ++ "' not found in schema"
  | argument fault => "invalid argument: " ++ fault.text
  | definition fault => "invalid definition: " ++ fault.text
  | schemaDefinition fault => "definition error: schema mismatch: " ++ fault.text
  | malformedDefinition => "definition error"
  | unsupported what => "not implemented: " ++ what.text
  | outsideRow position width =>
    "position " ++ toString position ++ " is outside a row of " ++ toString width ++ " values"

end Tabular
