import Tabular.Proofs.Reduction.Groups
import Tabular.Proofs.Value.Equality

namespace Tabular

/-- The values of some rows in a column, but for the missing ones. -/
def Schema.present (s : Schema) (column : String) (rows : List Row) : List Value :=
  (rows.filterMap fun row => s.cell? row column).filter fun v => !v.isNull

theorem Schema.present_concat {s : Schema} {column : String} {row : Row} {v : Value}
    (hv : s.cell? row column = some v) (rows : List Row) :
    s.present column (rows ++ [row]) =
      s.present column rows ++ if v.isNull then [] else [v] := by
  rw [present, List.filterMap_append, List.filter_append, ← present]
  cases hnull : v.isNull with
  | true => simp [hv, hnull]
  | false => simp [hv, hnull]

theorem Accumulator.add_countUnique {v : Value} {key : Key} (h : Key.of? v = some key)
    (seen : List Key) : (countUnique seen).add v = .ok (countUnique (seen.insert key)) := by
  cases v <;> cases h <;> rfl

theorem Accumulator.add_countUnique_of_isNull {v : Value} (h : v.isNull = true)
    (seen : List Key) : (countUnique seen).add v = .ok (countUnique seen) := by
  cases v <;> cases h
  rfl

theorem insert_perm_eraseDups {seen : List Key} {keys : List (Option Key)}
    (h : (seen.map some).Perm keys.eraseDups) (key : Key) :
    ((seen.insert key).map some).Perm (keys ++ [some key]).eraseDups := by
  have hmem : key ∈ seen ↔ some key ∈ keys := by
    have hseen : key ∈ seen ↔ some key ∈ seen.map some := by simp
    rw [hseen, h.mem_iff, List.mem_eraseDups]
  rw [eraseDups_concat]
  by_cases hkey : key ∈ seen
  · rwa [List.insert_of_mem hkey, if_pos (hmem.1 hkey)]
  · rw [List.insert_of_not_mem hkey, if_neg (mt hmem.2 hkey), List.map_cons]
    exact (h.cons _).trans (List.perm_append_singleton _ _).symm

namespace PlannedReduction

variable {schema : Schema} {r : PlannedReduction} {rows : List Row}

/-- A count of distinct values has seen the keys of the values so far. -/
theorem FitsSchema.accumulate_countUnique (h : r.FitsSchema schema)
    (hunique : r.reduction = .countUnique) (hrows : ∀ row ∈ rows, row.Fits schema.types) :
    ∃ seen, r.accumulate rows = .ok (.countUnique seen) ∧
      (seen.map some).Perm ((schema.present r.input.name rows).map Key.of?).eraseDups := by
  induction rows using List.reverseRecOn with
  | nil =>
    refine ⟨[], ?_, .nil⟩
    rw [accumulate, hunique]
    rfl
  | append_singleton rows row ih =>
    obtain ⟨hbefore, hrow⟩ := List.forall_mem_append.1 hrows
    obtain ⟨seen, hseen, hperm⟩ := ih hbefore
    obtain ⟨v, hv, -, hadd⟩ := h.exists_cell (hrow row (List.mem_singleton_self row))
    have hpresent := Schema.present_concat ((h.cell?_eq row).trans hv) rows
    rw [accumulate_concat, hseen, hpresent]
    change ∃ seen', r.addCell (.countUnique seen) row = _ ∧ _
    rw [hadd]
    cases hnull : v.isNull with
    | true =>
      refine ⟨seen, Accumulator.add_countUnique_of_isNull hnull seen, ?_⟩
      rwa [if_pos rfl, List.append_nil]
    | false =>
      obtain ⟨key, hkey⟩ := Key.exists_of? hnull
      refine ⟨seen.insert key, Accumulator.add_countUnique hkey seen, ?_⟩
      rw [if_neg Bool.false_ne_true, List.map_append, List.map_cons, List.map_nil, hkey]
      exact insert_perm_eraseDups hperm key

end PlannedReduction

namespace Grouping

variable {g : Grouping} {schema : Schema} {p : GroupingPlan}

/-- Whether the key values of two rows are missing together or compare equal, one by one. -/
def alike (g : Grouping) (schema : Schema) (row other : Row) : Bool :=
  List.isEqv (schema.cells g.keys row) (schema.cells g.keys other) Value.alike

theorem keyOf_eq_iff_alike (hp : g.plan schema = .ok p) {row other : Row}
    (hrow : row.Fits schema.types) (hother : other.Fits schema.types)
    (hnan : ∀ v ∈ schema.cells g.keys row, v.isNaN = false)
    (hnan' : ∀ v ∈ schema.cells g.keys other, v.isNaN = false) :
    g.keyOf schema row = g.keyOf schema other ↔ g.alike schema row other = true := by
  obtain ⟨hnames, -⟩ := names_of_plan hp
  have hcells := hrow.pick p.keys
  have hcells' := hother.pick p.keys
  rw [hnames.pick_eq] at hcells hcells'
  exact Row.Fits.keys_eq_iff_alike hcells hcells' hnan hnan'

end Grouping

namespace Dataset

variable {d out : Dataset} {column : String} {g : Grouping}

/-- No value in some columns is a NaN. -/
def WithoutNaN (d : Dataset) (columns : List String) : Prop :=
  ∀ row ∈ d.rows, ∀ v ∈ d.schema.cells columns row, v.isNaN = false

instance (d : Dataset) (columns : List String) : Decidable (d.WithoutNaN columns) :=
  inferInstanceAs (Decidable (∀ row ∈ d.rows, ∀ v ∈ d.schema.cells columns row, v.isNaN = false))

theorem present_proper (valid : d.Valid) (hnan : d.WithoutNaN [column]) {i : Nat} {f : Field}
    (hcolumn : d.schema.requireColumn column = .ok (i, f)) {v : Value}
    (hv : v ∈ d.schema.present column d.rows) : f.type.Stores v ∧ v.isNaN = false := by
  obtain ⟨hcell, hnull⟩ := List.mem_filter.1 hv
  obtain ⟨row, hrow, hcell⟩ := List.mem_filterMap.1 hcell
  obtain ⟨hindex, hfield⟩ := Schema.requireColumn_eq_ok.1 hcolumn
  have hfits : PlannedReduction.FitsSchema d.schema ⟨i, .countUnique, f, .long⟩ := ⟨hfield, rfl⟩
  obtain ⟨w, hw, haccepts, -⟩ := hfits.exists_cell (valid row hrow)
  rw [Schema.cell?_of_indexOf? hindex] at hcell
  cases hcell.symm.trans hw
  refine ⟨ColumnType.stores_of_accepts haccepts (by simpa using hnull), ?_⟩
  apply hnan row hrow
  rw [Schema.cells, List.filterMap_cons, Schema.cell?_of_indexOf? hindex, hcell]
  exact List.mem_cons_self

theorem reduce_countUnique (valid : d.Valid) (hnan : d.WithoutNaN [column])
    (hcolumn : column ∈ d.schema.names) :
    ∃ chosen, Represents Value.comparesEqual chosen (d.schema.present column d.rows) ∧
      d.reduce column .countUnique = .ok (.long (Int64.ofNat chosen.length)) := by
  obtain ⟨f, hf, rfl⟩ := List.mem_map.1 hcolumn
  obtain ⟨i, hcolumn⟩ := Schema.exists_requireColumn hf
  obtain ⟨-, hfield⟩ := Schema.requireColumn_eq_ok.1 hcolumn
  have hfits : PlannedReduction.FitsSchema d.schema ⟨i, .countUnique, f, .long⟩ := ⟨hfield, rfl⟩
  obtain ⟨seen, hseen, hperm⟩ := hfits.accumulate_countUnique rfl valid
  have hreduce := hfits.reduce_eq d.rows
  rw [hseen] at hreduce
  obtain ⟨chosen, hchosen, hkeys⟩ := exists_represents Key.of? (d.schema.present f.name d.rows)
  have hlength : seen.length = chosen.length := by
    have hlength := hperm.length_eq
    rwa [← hkeys, List.length_map, List.length_map] at hlength
  refine ⟨chosen, hchosen.congr ?_, hreduce.trans (by rw [← hlength]; rfl)⟩
  intro v hv w hw
  obtain ⟨hstores, hnan'⟩ := present_proper valid hnan hcolumn hv
  obtain ⟨hstores', hnan''⟩ := present_proper valid hnan hcolumn hw
  rw [Bool.eq_iff_iff, beq_iff_eq, Value.comparesEqual_iff,
    hstores.key_eq_iff hstores' hnan' hnan'']

theorem reduceByKey_classes (valid : d.Valid) (hnan : d.WithoutNaN g.keys)
    (h : d.reduceByKey g = .ok out) :
    ∃ leaders, Represents (g.alike d.schema) leaders d.rows ∧
      List.Forall₂ (fun leader row => (d.filterRows (g.alike d.schema leader)).ReducesTo g row)
        leaders out.rows := by
  obtain ⟨p, hp, -⟩ := bind_eq_ok.1 h
  have halike : ∀ row ∈ d.rows, ∀ other ∈ d.rows,
      g.keyOf d.schema row = g.keyOf d.schema other ↔ g.alike d.schema row other = true := by
    intro row hrow other hother
    exact Grouping.keyOf_eq_iff_alike hp (valid row hrow) (valid other hother) (hnan row hrow)
      (hnan other hother)
  obtain ⟨leaders, hleaders, hkeys⟩ := exists_represents (g.keyOf d.schema) d.rows
  have hrows := forall₂_reducesTo valid h
  rw [keysOf, ← hkeys, List.forall₂_map_left_iff] at hrows
  refine ⟨leaders, hleaders.congr ?_, ?_⟩
  · intro row hrow other hother
    rw [Bool.eq_iff_iff, beq_iff_eq, halike row hrow other hother]
  · have hmem : ∀ leader ∈ leaders, leader ∈ d.rows := fun leader hl => hleaders.sublist.subset hl
    have hall := (List.forall₂_and_left _ _).2 ⟨hmem, hrows⟩
    apply hall.imp
    rintro leader row ⟨hleader, hrow⟩
    have hgroup : d.groupOf g (g.keyOf d.schema leader) =
        d.filterRows (g.alike d.schema leader) := by
      rw [groupOf, filterRows, filterRows]
      congr 1
      apply List.filter_congr
      intro other hother
      rw [Bool.eq_iff_iff, decide_eq_true_iff, eq_comm, halike leader hleader other hother]
    rwa [← hgroup]

end Dataset

end Tabular
