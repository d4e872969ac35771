import Tabular.Proofs.Join.Basic

namespace Tabular

theorem filterMap_eq_range {α β : Type} (f : α → Option β) (xs : List α) :
    xs.filterMap f = (List.range xs.length).filterMap fun i => xs[i]?.bind f := by
  induction xs with
  | nil => rfl
  | cons x xs ih =>
    have htail : (List.range xs.length).filterMap ((fun i => (x :: xs)[i]?.bind f) ∘ Nat.succ) =
        xs.filterMap f := ih.symm
    rw [List.length_cons, List.range_succ_eq_map, List.filterMap_cons, List.filterMap_cons,
      List.filterMap_map, htail]
    rfl

namespace Schema

variable {s : Schema} {columns : List String} {positions : List Nat}

/-- The values of a row in the columns with some names, in the order of the names. -/
def cells (s : Schema) (columns : List String) (row : Row) : Row :=
  columns.filterMap (s.cell? row)

/-- The values of a row in the other columns, in the order of the columns. -/
def otherCells (s : Schema) (columns : List String) (row : Row) : Row :=
  (s.fields.zip row).filterMap fun p => if p.1.name ∈ columns then none else some p.2

/-- Missing values for the other columns. -/
def otherNulls (s : Schema) (columns : List String) : Row :=
  s.fields.filterMap fun f => if f.name ∈ columns then none else some (.null f.type)

theorem Names.pick_eq (h : s.Names columns positions) (row : Row) :
    Row.pick row positions = s.cells columns row := by
  induction h with
  | nil => rfl
  | cons hname htail ih =>
    rw [Row.pick] at *
    rw [cells, List.filterMap_cons, List.filterMap_cons, cell?_of_indexOf? hname, ih, cells]

theorem Names.lt_size (h : s.Names columns positions) : ∀ i ∈ positions, i < s.size := by
  intro i hi
  induction h with
  | nil => cases hi
  | cons hname htail ih =>
    rcases List.mem_cons.1 hi with rfl | hi
    · exact indexOf?_lt hname
    · exact ih hi

theorem Names.mem_iff (h : s.Names columns positions) {name : String} {i : Nat}
    (hi : s.names[i]? = some name) : name ∈ columns ↔ i ∈ positions := by
  induction h with
  | nil => simp
  | @cons other k columns positions hname htail ih =>
    have hk := indexOf?_eq_some.1 hname
    have heq : name = other ↔ i = k := by
      constructor
      · rintro rfl
        have hik := (indexOf?_eq_some.2 hi).symm.trans hname
        exact Option.some.inj hik
      · rintro rfl
        exact Option.some.inj (hi.symm.trans hk)
    rw [List.mem_cons, List.mem_cons, heq, ih]

theorem Names.filterMap_positionsExcept (h : s.Names columns positions) {α β : Type}
    (name : α → String) (g : α → β) {xs : List α} (hxs : xs.map name = s.names) :
    xs.filterMap (fun x => if name x ∈ columns then none else some (g x)) =
      (s.positionsExcept positions).filterMap fun i => xs[i]?.map g := by
  have hsize : s.size = xs.length := by
    rw [← List.length_map name, hxs, names, List.length_map, size]
  rw [filterMap_eq_range, positionsExcept, List.filterMap_filter, hsize]
  apply List.filterMap_congr
  intro i hi
  rw [List.mem_range] at hi
  have hname : s.names[i]? = some (name xs[i]) := by
    rw [← hxs, List.getElem?_map, List.getElem?_eq_getElem hi, Option.map_some]
  rw [List.getElem?_eq_getElem hi, Option.bind_some, Option.map_some]
  by_cases hmem : i ∈ positions
  · rw [if_pos ((h.mem_iff hname).2 hmem), if_neg (by simpa using hmem)]
  · rw [if_neg (fun hn => hmem ((h.mem_iff hname).1 hn)), if_pos (by simpa using hmem)]

theorem Names.pick_positionsExcept (h : s.Names columns positions) {row : Row}
    (hrow : row.length = s.size) :
    Row.pick row (s.positionsExcept positions) = s.otherCells columns row := by
  have hnames : (s.fields.zip row).map (fun p => p.1.name) = s.names := by
    have hfst : (s.fields.zip row).map Prod.fst = s.fields :=
      List.map_fst_zip (Nat.le_of_eq hrow.symm)
    rw [names, ← hfst, List.map_map, hfst]
    rfl
  have hcells := h.filterMap_positionsExcept (fun p : Field × Value => p.1.name) Prod.snd hnames
  rw [otherCells, hcells, Row.pick]
  apply List.filterMap_congr
  intro i _
  rw [← List.getElem?_map, List.map_snd_zip (Nat.le_of_eq hrow)]

theorem Names.nullsAt_positionsExcept (h : s.Names columns positions) :
    s.nullsAt (s.positionsExcept positions) = s.otherNulls columns := by
  have hnulls := h.filterMap_positionsExcept Field.name (fun f => Value.null f.type) rfl
  rw [otherNulls, hnulls, nullsAt]

end Schema

end Tabular
