import Tabular.Error

namespace Tabular

structure Field where
  name : String
  type : ColumnType
deriving DecidableEq

/-- The first reason not to accept a list of columns after the names in `seen`. -/
def SchemaFault.first? (seen : List String) : List Field → Option SchemaFault
  | [] => none
  | f :: rest =>
    if f.name = "" then some .emptyName
    else if f.name ∈ seen then some (.repeatedName f.name)
    else first? (f.name :: seen) rest

theorem SchemaFault.first?_eq_none {fields : List Field} {seen : List String}
    (h : first? seen fields = none) :
    (∀ f ∈ fields, f.name ≠ "") ∧ (fields.map Field.name).Nodup ∧
      ∀ f ∈ fields, f.name ∉ seen := by
  induction fields generalizing seen with
  | nil => simp
  | cons f rest ih =>
    rw [first?] at h
    split at h
    · simp at h
    · split at h
      · simp at h
      · next hname hseen =>
        obtain ⟨named, distinct, fresh⟩ := ih h
        refine ⟨?_, ?_, ?_⟩
        · intro g hg
          rcases List.mem_cons.1 hg with rfl | hg
          · exact hname
          · exact named g hg
        · rw [List.map_cons, List.nodup_cons]
          refine ⟨?_, distinct⟩
          intro hmem
          obtain ⟨g, hg, heq⟩ := List.mem_map.1 hmem
          exact fresh g hg (heq ▸ List.mem_cons_self)
        · intro g hg
          rcases List.mem_cons.1 hg with rfl | hg
          · exact hseen
          · exact fun hmem => fresh g hg (List.mem_cons_of_mem _ hmem)

structure Schema where
  fields : List Field
  named : ∀ f ∈ fields, f.name ≠ ""
  distinct : (fields.map Field.name).Nodup
deriving DecidableEq

namespace Schema

/-- The schema with the given columns, unless a name is empty or repeated. -/
def check (fields : List Field) : Except SchemaFault Schema :=
  match h : SchemaFault.first? [] fields with
  | some fault => .error fault
  | none =>
    .ok ⟨fields, (SchemaFault.first?_eq_none h).1, (SchemaFault.first?_eq_none h).2.1⟩

/-- As `check`, with the fault as an error. -/
def ofFields (fields : List Field) : Except Error Schema :=
  (check fields).mapError .schema

def size (s : Schema) : Nat := s.fields.length

def names (s : Schema) : List String := s.fields.map Field.name

def types (s : Schema) : List ColumnType := s.fields.map Field.type

def indexOf? (s : Schema) (name : String) : Option Nat :=
  s.fields.findIdx? (·.name == name)

/-- The position of a column that has to be there. -/
def requireIndex (s : Schema) (name : String) : Except Error Nat :=
  match s.indexOf? name with
  | some i => .ok i
  | none => .error (.columnNotFound name)

/-- The position of a column that has to be there, with the column. -/
def requireColumn (s : Schema) (name : String) : Except Error (Nat × Field) :=
  match (s.indexOf? name).bind fun i => s.fields[i]?.map (i, ·) with
  | some column => .ok column
  | none => .error (.columnNotFound name)

/-- A row fits a schema if it has a value for every column and each column accepts its value. -/
def validateRow (s : Schema) (row : Row) : Except Error Unit :=
  if row.length ≠ s.size then .error (.schema (.rowWidth row.length s.size))
  else
    match (s.fields.zip row).find? fun p => !p.1.type.accepts p.2 with
    | some (f, v) => .error (.typeMismatch (.forColumn f.type f.name) (.value v))
    | none => .ok ()

/-- The missing values of the columns at some positions. -/
def nullsAt (s : Schema) (positions : List Nat) : Row :=
  positions.filterMap fun i => s.fields[i]?.map fun f => .null f.type

end Schema

def Row.pick (row : Row) (positions : List Nat) : Row :=
  positions.filterMap fun i => row[i]?

/-- Columns collected one by one; they are checked when the schema is built. -/
structure SchemaBuilder where
  fields : List Field

namespace SchemaBuilder

def empty : SchemaBuilder := ⟨[]⟩

def column (b : SchemaBuilder) (name : String) (type : ColumnType) : SchemaBuilder :=
  ⟨b.fields ++ [⟨name, type⟩]⟩

def columns (b : SchemaBuilder) (names : List String) (type : ColumnType) : SchemaBuilder :=
  ⟨b.fields ++ names.map (⟨·, type⟩)⟩

def string (b : SchemaBuilder) (name : String) : SchemaBuilder := b.column name .string

def integer (b : SchemaBuilder) (name : String) : SchemaBuilder := b.column name .integer

def integers (b : SchemaBuilder) (names : List String) : SchemaBuilder := b.columns names .integer

def long (b : SchemaBuilder) (name : String) : SchemaBuilder := b.column name .long

def float (b : SchemaBuilder) (name : String) : SchemaBuilder := b.column name .float

def double (b : SchemaBuilder) (name : String) : SchemaBuilder := b.column name .double

def doubles (b : SchemaBuilder) (names : List String) : SchemaBuilder := b.columns names .double

def boolean (b : SchemaBuilder) (name : String) : SchemaBuilder := b.column name .boolean

def byte (b : SchemaBuilder) (name : String) : SchemaBuilder := b.column name .byte

def bytes (b : SchemaBuilder) (name : String) : SchemaBuilder := b.column name .bytes

def categorical (b : SchemaBuilder) (name : String) : SchemaBuilder := b.column name .categorical

def build (b : SchemaBuilder) : Except Error Schema := Schema.ofFields b.fields

end SchemaBuilder

end Tabular
