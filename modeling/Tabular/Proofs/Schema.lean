import Mathlib.Data.List.Forall2
import Mathlib.Data.List.Nodup
import Tabular.Dataset
import Tabular.Proofs.Except
import Tabular.Proofs.Value.Stored

namespace Tabular

/-- Every column type accepts the value at its position. -/
def Row.Fits (types : List ColumnType) (row : Row) : Prop :=
  List.Forall₂ (fun type v => type.accepts v = true) types row

namespace Row.Fits

variable {types : List ColumnType} {row : Row}

theorem length_eq (h : Row.Fits types row) : row.length = types.length :=
  (List.Forall₂.length_eq h).symm

theorem iff_find? : Row.Fits types row ↔
    row.length = types.length ∧ ((types.zip row).find? fun p => !p.1.accepts p.2) = none := by
  rw [Row.Fits, List.forall₂_iff_zip, @eq_comm Nat row.length]
  simp only [List.find?_eq_none, Prod.forall, Bool.not_eq_true', Bool.not_eq_false]

theorem append {more : List ColumnType} {other : Row} (h : Row.Fits types row)
    (h' : Row.Fits more other) : Row.Fits (types ++ more) (row ++ other) :=
  List.rel_append h h'

theorem getElem? (h : Row.Fits types row) (i : Nat) :
    (types[i]? = none ∧ row[i]? = none) ∨
      ∃ type v, types[i]? = some type ∧ row[i]? = some v ∧ type.accepts v = true := by
  induction h generalizing i with
  | nil => exact .inl ⟨rfl, rfl⟩
  | @cons type v types row hv h ih =>
    cases i with
    | zero => exact .inr ⟨type, v, rfl, rfl, hv⟩
    | succ i => exact ih i

theorem pick (h : Row.Fits types row) (positions : List Nat) :
    Row.Fits (positions.filterMap fun i => types[i]?) (Row.pick row positions) := by
  induction positions with
  | nil => exact .nil
  | cons i positions ih =>
    rw [Row.pick] at *
    rcases h.getElem? i with ⟨htype, hv⟩ | ⟨type, v, htype, hv, haccepts⟩
    · rw [List.filterMap_cons, List.filterMap_cons, htype, hv]
      exact ih
    · rw [List.filterMap_cons, List.filterMap_cons, htype, hv]
      exact .cons haccepts ih

theorem set (h : Row.Fits types row) {i : Nat} {type : ColumnType} (htype : types[i]? = some type)
    {v : Value} (hv : type.accepts v = true) : Row.Fits types (row.set i v) := by
  induction h generalizing i with
  | nil => exact .nil
  | cons hw h ih =>
    cases i with
    | zero =>
      cases htype
      exact .cons hv h
    | succ i => exact .cons hw (ih htype)

end Row.Fits

/-- The check of columns finds nothing if no name is empty, repeated or among the names in `seen`.
-/
theorem SchemaFault.first?_eq_none_of {fields : List Field} {seen : List String}
    (named : ∀ f ∈ fields, f.name ≠ "") (distinct : (fields.map Field.name).Nodup)
    (fresh : ∀ f ∈ fields, f.name ∉ seen) : first? seen fields = none := by
  induction fields generalizing seen with
  | nil => rfl
  | cons f fields ih =>
    obtain ⟨hname, named⟩ := List.forall_mem_cons.1 named
    obtain ⟨hfresh, fresh⟩ := List.forall_mem_cons.1 fresh
    rw [List.map_cons, List.nodup_cons] at distinct
    obtain ⟨hnew, distinct⟩ := distinct
    rw [first?, if_neg hname, if_neg hfresh]
    apply ih named distinct
    intro g hg hmem
    rcases List.mem_cons.1 hmem with heq | hmem
    · exact hnew (heq ▸ List.mem_map_of_mem hg)
    · exact fresh g hg hmem

theorem Schema.check_fields (s : Schema) : check s.fields = .ok s := by
  have hnone : SchemaFault.first? [] s.fields = none :=
    SchemaFault.first?_eq_none_of s.named s.distinct fun _ _ => List.not_mem_nil
  rw [check]
  split
  · next fault hfault => cases hnone.symm.trans hfault
  · rfl

theorem Schema.exists_ofFields {fields : List Field} (named : ∀ f ∈ fields, f.name ≠ "")
    (distinct : (fields.map Field.name).Nodup) : ∃ s, ofFields fields = .ok s := by
  have hcheck : check fields = .ok ⟨fields, named, distinct⟩ :=
    check_fields ⟨fields, named, distinct⟩
  refine ⟨⟨fields, named, distinct⟩, ?_⟩
  rw [ofFields, hcheck]
  rfl

theorem Schema.length_types (s : Schema) : s.types.length = s.size :=
  List.length_map _

theorem Schema.types_getElem? (s : Schema) (i : Nat) :
    s.types[i]? = s.fields[i]?.map Field.type :=
  List.getElem?_map

namespace Schema

variable {s : Schema} {name : String} {i : Nat}

/-- The value of a row in the column with a name. -/
def cell? (s : Schema) (row : Row) (name : String) : Option Value :=
  ((s.fields.zip row).find? fun p => p.1.name == name).map Prod.snd

theorem indexOf?_eq_some :
    s.indexOf? name = some i ↔ s.names[i]? = some name := by
  have hnames : s.indexOf? name = s.names.findIdx? (· == name) := by
    rw [Schema.names, List.findIdx?_map]
    rfl
  rw [hnames, List.findIdx?_eq_some_iff_getElem, List.getElem?_eq_some_iff]
  constructor
  · rintro ⟨h, hi, -⟩
    exact ⟨h, beq_iff_eq.1 hi⟩
  · rintro ⟨h, hi⟩
    refine ⟨h, beq_iff_eq.2 hi, fun j hj hname => ?_⟩
    have heq : s.names[j] = s.names[i] := (beq_iff_eq.1 hname).trans hi.symm
    have hij := (List.Nodup.getElem_inj_iff s.distinct).1 heq
    omega

theorem indexOf?_lt (h : s.indexOf? name = some i) : i < s.size := by
  obtain ⟨hi, -⟩ := List.getElem?_eq_some_iff.1 (indexOf?_eq_some.1 h)
  rwa [names, List.length_map] at hi

theorem cell?_of_indexOf? (h : s.indexOf? name = some i) (row : Row) :
    s.cell? row name = row[i]? := by
  rw [cell?]
  rw [indexOf?] at h
  generalize s.fields = fields at h
  induction fields generalizing row i with
  | nil => cases h
  | cons f fields ih =>
    cases row with
    | nil => rfl
    | cons v row =>
      rw [List.findIdx?_cons] at h
      rw [List.zip_cons_cons, List.find?_cons]
      cases hname : f.name == name with
      | true =>
        rw [hname, if_pos rfl] at h
        cases h
        rfl
      | false =>
        rw [hname, if_neg Bool.false_ne_true, Option.map_eq_some_iff] at h
        obtain ⟨i, hi, rfl⟩ := h
        exact ih row hi

theorem requireColumn_eq_ok {f : Field} :
    s.requireColumn name = .ok (i, f) ↔ s.indexOf? name = some i ∧ s.fields[i]? = some f := by
  rw [requireColumn]
  constructor
  · intro h
    split at h
    · next column hcolumn =>
      cases h
      obtain ⟨k, hk, hf⟩ := Option.bind_eq_some_iff.1 hcolumn
      obtain ⟨g, hg, heq⟩ := Option.map_eq_some_iff.1 hf
      cases heq
      exact ⟨hk, hg⟩
    · cases h
  · rintro ⟨hi, hf⟩
    rw [hi, Option.bind_some, hf]
    rfl

theorem exists_requireColumn {f : Field} (h : f ∈ s.fields) :
    ∃ i, s.requireColumn f.name = .ok (i, f) := by
  obtain ⟨i, hi⟩ := List.mem_iff_getElem?.1 h
  refine ⟨i, requireColumn_eq_ok.2 ⟨indexOf?_eq_some.2 ?_, hi⟩⟩
  rw [names, List.getElem?_map, hi, Option.map_some]

theorem name_of_requireColumn {f : Field} (h : s.requireColumn name = .ok (i, f)) :
    f.name = name := by
  obtain ⟨hi, hf⟩ := requireColumn_eq_ok.1 h
  have hname := indexOf?_eq_some.1 hi
  rw [names, List.getElem?_map, hf, Option.map_some] at hname
  exact Option.some.inj hname

end Schema

theorem Schema.fits_nullsAt (s : Schema) (positions : List Nat) :
    Row.Fits (positions.filterMap fun i => s.types[i]?) (s.nullsAt positions) := by
  induction positions with
  | nil => exact .nil
  | cons i positions ih =>
    rw [Schema.nullsAt] at *
    rw [List.filterMap_cons, List.filterMap_cons, s.types_getElem?]
    cases s.fields[i]? with
    | none => exact ih
    | some f => exact .cons f.type.accepts_null ih

theorem Schema.find?_refused (s : Schema) (row : Row) :
    ((s.fields.zip row).find? fun p => !p.1.type.accepts p.2) = none ↔
      ((s.types.zip row).find? fun p => !p.1.accepts p.2) = none := by
  rw [Schema.types, List.zip_map_left, List.find?_map, Option.map_eq_none_iff]
  rfl

theorem Schema.validateRow_eq_ok {s : Schema} {row : Row} :
    s.validateRow row = .ok () ↔ row.Fits s.types := by
  rw [Row.Fits.iff_find?, ← s.find?_refused, s.length_types, Schema.validateRow]
  split
  · next hlength => simp [hlength]
  · next hlength =>
    split
    · next hfind => simp [hfind]
    · next hfind => simp only [Decidable.not_not.1 hlength, hfind, and_self]

theorem Schema.fits_iff {s : Schema} {row : Row} : row.Fits s.types ↔
    row.length = s.size ∧ ∀ p ∈ s.fields.zip row, p.1.type.accepts p.2 = true := by
  rw [Row.Fits, Schema.types, List.forall₂_map_left_iff, List.forall₂_iff_zip,
    @eq_comm Nat row.length, Schema.size]
  simp only [Prod.forall]

def Dataset.Valid (d : Dataset) : Prop := ∀ row ∈ d.rows, row.Fits d.schema.types

theorem Dataset.validate_eq_ok {d : Dataset} : d.validate = .ok () ↔ d.Valid := by
  rw [Dataset.validate, forM_eq_ok]
  exact forall₂_congr fun _ _ => Schema.validateRow_eq_ok

end Tabular
