import Tabular.Schema

namespace Tabular

/-- Which rows without a partner are kept. -/
inductive JoinType where
  | inner
  | leftOuter
  | rightOuter
  | fullOuter
deriving DecidableEq

namespace JoinType

def all : List JoinType := [.inner, .leftOuter, .rightOuter, .fullOuter]

def name : JoinType → String
  | inner => "Inner"
  | leftOuter => "LeftOuter"
  | rightOuter => "RightOuter"
  | fullOuter => "FullOuter"

def ofName? (text : String) : Option JoinType :=
  all.find? (·.name == text)

def keepsLeft : JoinType → Bool
  | leftOuter | fullOuter => true
  | inner | rightOuter => false

def keepsRight : JoinType → Bool
  | rightOuter | fullOuter => true
  | inner | leftOuter => false

end JoinType

/-- A join of two schemas, with the positions of the key columns and of the others on each side. -/
structure Join where
  type : JoinType
  left : Schema
  right : Schema
  leftKeys : List Nat
  rightKeys : List Nat
  leftRest : List Nat
  rightRest : List Nat
  output : Schema
deriving DecidableEq

def Schema.pick (s : Schema) (positions : List Nat) : List Field :=
  positions.filterMap fun i => s.fields[i]?

/-- The positions of a schema that are not among the given ones. -/
def Schema.positionsExcept (s : Schema) (positions : List Nat) : List Nat :=
  (List.range s.size).filter fun i => !positions.contains i

/-- The first name that stands for the second time, after the names in `seen`. -/
def firstRepeated? (seen : List String) : List String → Option String
  | [] => none
  | name :: rest =>
    if seen.contains name then some name else firstRepeated? (name :: seen) rest

namespace Join

/-- The names that one of the two schemas does not have. -/
def missingKeys (left right : Schema) (leftColumns rightColumns : List String) : List String :=
  leftColumns.filter (fun c => (left.indexOf? c).isNone) ++
    rightColumns.filter (fun c => (right.indexOf? c).isNone)

/-- The pairs of key columns with different types. -/
def mismatchedKeys (left right : List Field) :
    List ((String × ColumnType) × (String × ColumnType)) :=
  (left.zip right).filterMap fun (l, r) =>
    if l.type = r.type then none else some ((l.name, l.type), (r.name, r.type))

/-- The names of the right columns that a left column has as well. -/
def collisions (left right : List Field) : List String :=
  (right.map Field.name).filter fun name => left.any (·.name == name)

/-- A join on key columns that are named for each side, the names at one place being a pair. -/
def onColumns (type : JoinType) (left right : Schema) (leftColumns rightColumns : List String) :
    Except Error Join := do
  if leftColumns.isEmpty || rightColumns.isEmpty then
    throw (.join .noKeys)
  if leftColumns.length ≠ rightColumns.length then
    throw (.join (.keyCounts leftColumns rightColumns))
  let missing := missingKeys left right leftColumns rightColumns
  if !missing.isEmpty then
    throw (.join (.missingKeys missing))
  match (firstRepeated? [] leftColumns).or (firstRepeated? [] rightColumns) with
  | some column => throw (.join (.repeatedKey column))
  | none => pure ()
  let leftKeys ← leftColumns.mapM left.requireIndex
  let rightKeys ← rightColumns.mapM right.requireIndex
  let mismatched := mismatchedKeys (left.pick leftKeys) (right.pick rightKeys)
  if !mismatched.isEmpty then
    throw (.join (.keyTypes mismatched))
  let leftRest := left.positionsExcept leftKeys
  let rightRest := right.positionsExcept rightKeys
  let leftFields := left.pick leftKeys ++ left.pick leftRest
  let colliding := collisions leftFields (right.pick rightRest)
  if !colliding.isEmpty then
    throw (.join (.nameCollision colliding))
  let output ← Schema.ofFields (leftFields ++ right.pick rightRest)
  return { type, left, right, leftKeys, rightKeys, leftRest, rightRest, output }

def on (type : JoinType) (left right : Schema) (columns : List String) : Except Error Join :=
  onColumns type left right columns columns

def leftKeyColumns (j : Join) : List String := (j.left.pick j.leftKeys).map Field.name

def rightKeyColumns (j : Join) : List String := (j.right.pick j.rightKeys).map Field.name

end Join

end Tabular
