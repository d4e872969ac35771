import Tabular.Proofs.Join.Cells
import Tabular.Proofs.Reduction.Grouping
import Tabular.Proofs.Representatives
import Tabular.Transform.Filter

namespace Tabular

namespace PlannedReduction

/-- Adds the value in the planned column of a row. -/
def addCell (r : PlannedReduction) (acc : Accumulator) (row : Row) : Except Error Accumulator := do
  acc.add (← Row.reducedCell row r.position r.input.name)

/-- The accumulator of a planned reduction after some rows. -/
def accumulate (r : PlannedReduction) (rows : List Row) : Except Error Accumulator :=
  rows.foldlM r.addCell (Accumulator.start r.reduction r.input.type)

/-- The accumulators of some planned reductions after some rows. -/
def accumulateEach (reduced : List PlannedReduction) (rows : List Row) :
    Except Error (List Accumulator) :=
  reduced.mapM fun r => r.accumulate rows

variable {schema : Schema} {r : PlannedReduction}

theorem accumulate_concat (r : PlannedReduction) (rows : List Row) (row : Row) :
    r.accumulate (rows ++ [row]) = r.accumulate rows >>= fun acc => r.addCell acc row := by
  rw [accumulate, accumulate, List.foldlM_append]
  apply bind_congr
  intro acc
  exact bind_pure _

theorem accumulateEach_cons (r : PlannedReduction) (reduced : List PlannedReduction)
    (rows : List Row) : accumulateEach (r :: reduced) rows = do
      return (← r.accumulate rows) :: (← accumulateEach reduced rows) := by
  rw [accumulateEach, List.mapM_cons, ← accumulateEach]

theorem FitsSchema.requireColumn (h : r.FitsSchema schema) :
    schema.requireColumn r.input.name = .ok (r.position, r.input) := by
  obtain ⟨hfield, -⟩ := h
  apply Schema.requireColumn_eq_ok.2
  refine ⟨Schema.indexOf?_eq_some.2 ?_, hfield⟩
  rw [Schema.names, List.getElem?_map, hfield, Option.map_some]

theorem FitsSchema.cell?_eq (h : r.FitsSchema schema) (row : Row) :
    schema.cell? row r.input.name = row[r.position]? := by
  obtain ⟨hindex, -⟩ := Schema.requireColumn_eq_ok.1 h.requireColumn
  exact Schema.cell?_of_indexOf? hindex row

theorem FitsSchema.exists_cell (h : r.FitsSchema schema) {row : Row}
    (hrow : row.Fits schema.types) :
    ∃ v, row[r.position]? = some v ∧ r.input.type.accepts v = true ∧
      ∀ acc, r.addCell acc row = acc.add v := by
  have htype : schema.types[r.position]? = some r.input.type := by
    rw [schema.types_getElem?, h.1, Option.map_some]
  rcases hrow.getElem? r.position with ⟨hnone, -⟩ | ⟨type, v, hsome, hv, haccepts⟩
  · cases htype.symm.trans hnone
  · cases htype.symm.trans hsome
    refine ⟨v, hv, haccepts, ?_⟩
    intro acc
    rw [addCell, Row.reducedCell, hv]
    rfl

theorem FitsSchema.reduce_eq (h : r.FitsSchema schema) (rows : List Row) :
    (Dataset.mk schema rows).reduce r.input.name r.reduction =
      (r.accumulate rows).map fun acc => acc.finish r.output := by
  rw [Dataset.reduce, h.requireColumn]
  change r.reduction.outputType r.input.type >>= _ = _
  rw [h.2]
  change r.accumulate rows >>= _ = _
  cases r.accumulate rows <;> rfl

end PlannedReduction

namespace GroupingPlan

variable {schema : Schema} {p : GroupingPlan}

/-- The group of a key among some rows. -/
def groupAt (p : GroupingPlan) (rows : List Row) (key : List (Option Key)) : Except Error Group :=
  let own := rows.filter fun row => p.keyOf row = key
  (PlannedReduction.accumulateEach p.reduced own).map fun accs =>
    ⟨key, Row.pick (own.head?.getD []) p.keys, accs⟩

/-- The groups of all keys among some rows. -/
def groupsOf (p : GroupingPlan) (rows : List Row) : Except Error (List Group) :=
  (rows.map p.keyOf).eraseDups.mapM (p.groupAt rows)

theorem addValues_eq {reduced : List PlannedReduction} (h : ∀ r ∈ reduced, r.FitsSchema schema)
    {row : Row} (hrow : row.Fits schema.types) {rows : List Row} {accs : List Accumulator}
    (haccs : PlannedReduction.accumulateEach reduced rows = .ok accs) :
    addValues accs (Row.pick row (reduced.map PlannedReduction.position)) =
      PlannedReduction.accumulateEach reduced (rows ++ [row]) := by
  rw [PlannedReduction.accumulateEach, mapM_eq_ok] at haccs
  induction haccs with
  | nil => rfl
  | @cons r acc reduced accs hacc haccs ih =>
    obtain ⟨hhead, htail⟩ := List.forall_mem_cons.1 h
    obtain ⟨v, hv, -, hadd⟩ := hhead.exists_cell hrow
    have hpick : Row.pick row ((r :: reduced).map PlannedReduction.position) =
        v :: Row.pick row (reduced.map PlannedReduction.position) := by
      rw [Row.pick, List.map_cons, List.filterMap_cons, hv]
      rfl
    rw [hpick, addValues, ih htail, PlannedReduction.accumulateEach_cons, r.accumulate_concat,
      hacc, ← hadd]
    rfl

section Step

variable {rows : List Row} {row : Row} {g : Group} {groups : List Group} {key : List (Option Key)}
  {keys : List (List (Option Key))}

theorem filter_concat (h : p.keyOf row = key) :
    (rows ++ [row]).filter (fun row => p.keyOf row = key) =
      rows.filter (fun row => p.keyOf row = key) ++ [row] := by
  rw [List.filter_append, List.filter_cons_of_pos (by simpa using h), List.filter_nil]

theorem groupAt_concat_of_ne (h : p.keyOf row ≠ key) :
    p.groupAt (rows ++ [row]) key = p.groupAt rows key := by
  rw [groupAt, groupAt, List.filter_append, List.filter_cons_of_neg (by simpa using h),
    List.filter_nil, List.append_nil]

theorem addToGroup_eq (h : p.FitsSchema schema) (hrow : row.Fits schema.types)
    (hkey : p.keyOf row = key) (hold : ∃ old ∈ rows, p.keyOf old = key)
    (hg : p.groupAt rows key = .ok g) : p.addToGroup row g = p.groupAt (rows ++ [row]) key := by
  obtain ⟨accs, haccs, rfl⟩ := map_eq_ok.1 hg
  obtain ⟨first, hfirst⟩ : ∃ first, (rows.filter fun row => p.keyOf row = key).head? =
      some first := by
    obtain ⟨old, hmem, hold⟩ := hold
    rw [← Option.isSome_iff_exists, List.isSome_head?]
    apply List.ne_nil_of_mem
    exact List.mem_filter.2 ⟨hmem, by simpa using hold⟩
  rw [addToGroup, addValues_eq h.reduced hrow haccs, groupAt]
  simp only [filter_concat hkey, List.head?_append, hfirst, Option.some_or]
  generalize PlannedReduction.accumulateEach p.reduced _ = accs
  cases accs <;> rfl

theorem addToGroup_newGroup (h : p.FitsSchema schema) (hrow : row.Fits schema.types)
    (hnew : ∀ old ∈ rows, p.keyOf old ≠ p.keyOf row) :
    p.addToGroup row (p.newGroup row) = p.groupAt (rows ++ [row]) (p.keyOf row) := by
  have hempty : rows.filter (fun old => p.keyOf old = p.keyOf row) = [] := by
    apply List.filter_eq_nil_iff.2
    intro old hold
    simpa using hnew old hold
  have hstart : PlannedReduction.accumulateEach p.reduced [] =
      .ok (p.reduced.map fun r => Accumulator.start r.reduction r.input.type) := by
    rw [PlannedReduction.accumulateEach, mapM_eq_ok, List.forall₂_map_right_iff, List.forall₂_same]
    intro r _
    rfl
  have haccs := addValues_eq h.reduced hrow hstart
  rw [List.nil_append] at haccs
  rw [addToGroup, newGroup, haccs, groupAt]
  simp only [filter_concat rfl, hempty, List.nil_append]
  generalize PlannedReduction.accumulateEach p.reduced _ = accs
  cases accs <;> rfl

/-- A row goes to the group of its key, or starts one at the end. -/
theorem addRow_eq (h : p.FitsSchema schema) (hrow : row.Fits schema.types) (distinct : keys.Nodup)
    (old : ∀ key ∈ keys, ∃ old ∈ rows, p.keyOf old = key)
    (new : p.keyOf row ∉ keys → ∀ old ∈ rows, p.keyOf old ≠ p.keyOf row)
    (hgroups : keys.mapM (p.groupAt rows) = .ok groups) :
    p.addRow row groups =
      (if p.keyOf row ∈ keys then keys else keys ++ [p.keyOf row]).mapM
        (p.groupAt (rows ++ [row])) := by
  rw [mapM_eq_ok] at hgroups
  induction hgroups with
  | nil =>
    rw [addRow, addToGroup_newGroup h hrow (new List.not_mem_nil), if_neg List.not_mem_nil,
      List.nil_append, List.mapM_cons, List.mapM_nil]
    rfl
  | @cons key g keys groups hg hgroups ih =>
    obtain ⟨hfresh, distinct⟩ := List.nodup_cons.1 distinct
    obtain ⟨hold, old⟩ := List.forall_mem_cons.1 old
    have hgkey : g.key = key := by
      obtain ⟨accs, -, rfl⟩ := map_eq_ok.1 hg
      rfl
    rw [addRow, hgkey]
    by_cases hkey : p.keyOf row = key
    · have hmem : p.keyOf row ∈ key :: keys := hkey ▸ List.mem_cons_self
      have hrest : keys.mapM (p.groupAt (rows ++ [row])) = .ok groups := by
        have hne : ∀ other ∈ keys, p.keyOf row ≠ other := by
          rintro other hother rfl
          exact hfresh (hkey ▸ hother)
        have hboth := (List.forall₂_and_left keys groups).2 ⟨hne, hgroups⟩
        apply mapM_eq_ok.2 (hboth.imp _)
        rintro other g ⟨hother, hg⟩
        rw [groupAt_concat_of_ne hother, hg]
      rw [if_pos hkey.symm, if_pos hmem, List.mapM_cons, hrest, addToGroup_eq h hrow hkey hold hg]
      rfl
    · have hmem : p.keyOf row ∈ key :: keys ↔ p.keyOf row ∈ keys := by
        rw [List.mem_cons, or_iff_right hkey]
      have hnext := ih distinct old fun hnot => new (mt hmem.1 hnot)
      rw [if_neg (Ne.symm hkey), hnext]
      have hhead := (groupAt_concat_of_ne hkey).trans hg
      by_cases hrest : p.keyOf row ∈ keys
      · rw [if_pos hrest, if_pos (hmem.2 hrest), List.mapM_cons, hhead]
        rfl
      · rw [if_neg hrest, if_neg (mt hmem.1 hrest), List.cons_append, List.mapM_cons, hhead]
        rfl

end Step

section Run

variable {rows : List Row} {groups : List Group}

/-- One more row, in terms of the groups of all keys. -/
theorem addRow_groupsOf (h : p.FitsSchema schema) {row : Row} (hrow : row.Fits schema.types)
    (hgroups : p.groupsOf rows = .ok groups) :
    p.addRow row groups = p.groupsOf (rows ++ [row]) := by
  have hmem : ∀ key, key ∈ (rows.map p.keyOf).eraseDups ↔ ∃ old ∈ rows, p.keyOf old = key := by
    intro key
    rw [List.mem_eraseDups, List.mem_map]
  have hnew : p.keyOf row ∉ (rows.map p.keyOf).eraseDups →
      ∀ old ∈ rows, p.keyOf old ≠ p.keyOf row := by
    intro hnot old hold heq
    exact hnot ((hmem _).2 ⟨old, hold, heq⟩)
  rw [groupsOf] at hgroups
  rw [addRow_eq h hrow (nodup_eraseDups _) (fun key hkey => (hmem key).1 hkey) hnew hgroups,
    groupsOf, List.map_append, List.map_cons, List.map_nil, eraseDups_concat]
  simp only [List.mem_eraseDups]

theorem exists_groupsOf_of_concat {row : Row} (h : p.groupsOf (rows ++ [row]) = .ok groups) :
    ∃ before, p.groupsOf rows = .ok before := by
  rw [groupsOf] at h
  apply exists_mapM_eq_ok.2
  intro key hkey
  have hkey' : key ∈ ((rows ++ [row]).map p.keyOf).eraseDups := by
    rw [List.mem_eraseDups] at *
    rw [List.map_append]
    exact List.mem_append_left _ hkey
  obtain ⟨g, hg⟩ := exists_mapM_eq_ok.1 ⟨_, h⟩ key hkey'
  by_cases hrow : p.keyOf row = key
  · obtain ⟨accs, haccs, -⟩ := map_eq_ok.1 hg
    rw [filter_concat hrow] at haccs
    have heach := exists_mapM_eq_ok.1 ⟨accs, haccs⟩
    obtain ⟨accs', haccs'⟩ := exists_mapM_eq_ok.2 fun r hr => by
      obtain ⟨acc, hacc⟩ := heach r hr
      rw [r.accumulate_concat] at hacc
      obtain ⟨acc', hacc', -⟩ := bind_eq_ok.1 hacc
      exact ⟨acc', hacc'⟩
    exact ⟨_, map_eq_ok.2 ⟨accs', haccs', rfl⟩⟩
  · exact ⟨g, (groupAt_concat_of_ne hrow).symm.trans hg⟩

/-- Reading the rows one after the other comes to the groups of all keys, unless one of these cannot
be reduced. -/
theorem foldlM_addRow_eq_ok (h : p.FitsSchema schema)
    (hrows : ∀ row ∈ rows, row.Fits schema.types) : rows.foldlM (fun groups row => do
      schema.validateRow row
      p.addRow row groups) [] = .ok groups ↔ p.groupsOf rows = .ok groups := by
  induction rows using List.reverseRecOn generalizing groups with
  | nil => rfl
  | append_singleton rows row ih =>
    obtain ⟨hbefore, hrow⟩ := List.forall_mem_append.1 hrows
    have hrow := hrow row (List.mem_singleton_self row)
    have hstep : ∀ before, p.groupsOf rows = .ok before →
        (List.foldlM (fun groups row => do
          schema.validateRow row
          p.addRow row groups) before [row] : Except Error (List Group)) =
        p.groupsOf (rows ++ [row]) := by
      intro before hgroups
      rw [List.foldlM_cons, Schema.validateRow_eq_ok.2 hrow, ← addRow_groupsOf h hrow hgroups]
      exact bind_pure _
    rw [List.foldlM_append, bind_eq_ok]
    constructor
    · rintro ⟨before, hfold, hgroups⟩
      rwa [hstep before ((ih hbefore).1 hfold)] at hgroups
    · intro hgroups
      obtain ⟨before, hbefore'⟩ := exists_groupsOf_of_concat hgroups
      exact ⟨before, (ih hbefore).2 hbefore', (hstep before hbefore').trans hgroups⟩

end Run

end GroupingPlan

namespace Grouping

/-- The reductions that a grouping asks for, by column: those of each column that is no key, in the
order of the columns. -/
def planned (g : Grouping) (schema : Schema) : List (String × Reduction) :=
  (schema.names.filter fun name => !g.keys.contains name).flatMap fun name =>
    (g.reductionsOf name).map fun r => (name, r)

/-- The key of a row by the names of the key columns; a missing value is a part of its own. -/
def keyOf (g : Grouping) (schema : Schema) (row : Row) : List (Option Key) :=
  (schema.cells g.keys row).map Key.of?

variable {g : Grouping} {schema : Schema} {p : GroupingPlan}

theorem planColumn_names {position : Nat} {f : Field} {reduced : List PlannedReduction}
    (h : g.planColumn position f = .ok reduced) :
    reduced.map (fun r => (r.input.name, r.reduction)) =
      (g.reductionsOf f.name).map fun r => (f.name, r) := by
  rw [planColumn, mapM_eq_ok] at h
  generalize g.reductionsOf f.name = reductions at h
  induction h with
  | nil => rfl
  | cons hr _ ih =>
    obtain ⟨output, -, rfl⟩ := map_eq_ok.1 hr
    rw [List.map_cons, List.map_cons, ih]

theorem planColumns_names {columns : List (Field × Nat)} {reduced : List (List PlannedReduction)}
    (h : columns.mapM (fun q => g.planColumn q.2 q.1) = .ok reduced) :
    reduced.flatten.map (fun r => (r.input.name, r.reduction)) =
      columns.flatMap fun q => (g.reductionsOf q.1.name).map fun r => (q.1.name, r) := by
  rw [mapM_eq_ok] at h
  induction h with
  | nil => rfl
  | cons hplan _ ih =>
    rw [List.flatten_cons, List.map_append, List.flatMap_cons, ih, planColumn_names hplan]

theorem names_of_others {keys : List Nat} (h : schema.Names g.keys keys) :
    (schema.fields.zipIdx.filter fun q => !keys.contains q.2).map (fun q => q.1.name) =
      schema.names.filter fun name => !g.keys.contains name := by
  have hnames : schema.names = schema.fields.zipIdx.map fun q => q.1.name := by
    have hfst := congrArg (List.map Field.name) (List.zipIdx_map_fst 0 schema.fields)
    rw [List.map_map] at hfst
    exact hfst.symm
  rw [hnames, List.filter_map]
  apply congrArg
  apply List.filter_congr
  intro q hq
  have hname : schema.names[q.2]? = some q.1.name := by
    rw [Schema.names, List.getElem?_map, List.mem_zipIdx_iff_getElem?.1 hq, Option.map_some]
  have hmem := h.mem_iff hname
  simp only [Function.comp_apply, List.contains_eq_mem, hmem]

theorem names_of_plan (h : g.plan schema = .ok p) : schema.Names g.keys p.keys ∧
    p.reduced.map (fun r => (r.input.name, r.reduction)) = g.planned schema := by
  simp only [plan, guard_eq_ok] at h
  obtain ⟨-, h⟩ := h
  obtain ⟨keys, hkeys, h⟩ := bind_eq_ok.1 h
  obtain ⟨_, -, h⟩ := bind_eq_ok.1 h
  obtain ⟨reduced, hreduced, h⟩ := bind_eq_ok.1 h
  obtain ⟨output, -, h⟩ := bind_eq_ok.1 h
  cases h
  have hnames := Schema.mapM_requireIndex.1 hkeys
  refine ⟨hnames, ?_⟩
  rw [planned, ← names_of_others hnames, List.flatMap_map]
  exact planColumns_names hreduced

theorem keyOf_of_plan (h : g.plan schema = .ok p) (row : Row) :
    p.keyOf row = g.keyOf schema row := by
  obtain ⟨hnames, -⟩ := names_of_plan h
  rw [GroupingPlan.keyOf, keyOf, hnames.pick_eq]

end Grouping

namespace Dataset

/-- The different keys of the rows, in the order in which they first occur. -/
def keysOf (d : Dataset) (g : Grouping) : List (List (Option Key)) :=
  (d.rows.map (g.keyOf d.schema)).eraseDups

/-- The rows that have a key. -/
def groupOf (d : Dataset) (g : Grouping) (key : List (Option Key)) : Dataset :=
  d.filterRows fun row => g.keyOf d.schema row = key

/-- A row stands for a group: it has the key values of the first row, and then what each reduction
gives on the rows alone. -/
def ReducesTo (group : Dataset) (g : Grouping) (out : Row) : Prop :=
  ∃ first values, group.rows.head? = some first ∧
    List.Forall₂ (fun r v => group.reduce r.1 r.2 = .ok v) (g.planned group.schema) values ∧
    out = group.schema.cells g.keys first ++ values

variable {d : Dataset} {g : Grouping} {p : GroupingPlan} {key : List (Option Key)}

theorem groupOf_rows (hp : g.plan d.schema = .ok p) (key : List (Option Key)) :
    (d.groupOf g key).rows = d.rows.filter fun row => p.keyOf row = key := by
  simp only [groupOf, filterRows, Grouping.keyOf_of_plan hp]

theorem keysOf_eq (hp : g.plan d.schema = .ok p) :
    d.keysOf g = (d.rows.map p.keyOf).eraseDups := by
  have hkey : p.keyOf = g.keyOf d.schema := funext (Grouping.keyOf_of_plan hp)
  rw [keysOf, hkey]

theorem reduceByKey_eq_ok (valid : d.Valid) (hp : g.plan d.schema = .ok p) {out : Dataset} :
    d.reduceByKey g = .ok out ↔
      ∃ groups, p.groupsOf d.rows = .ok groups ∧ out = ⟨p.schema, groups.map p.finish⟩ := by
  have hfits := Grouping.fitsSchema_of_plan hp
  constructor
  · intro h
    obtain ⟨p', hp', h⟩ := bind_eq_ok.1 h
    cases hp.symm.trans hp'
    obtain ⟨groups, hgroups, h⟩ := bind_eq_ok.1 h
    exact ⟨groups, (GroupingPlan.foldlM_addRow_eq_ok hfits valid).1 hgroups,
      (Except.ok.inj h).symm⟩
  · rintro ⟨groups, hgroups, rfl⟩
    have hfold := (GroupingPlan.foldlM_addRow_eq_ok hfits valid).2 hgroups
    exact bind_eq_ok.2 ⟨p, hp, bind_eq_ok.2 ⟨groups, hfold, rfl⟩⟩

theorem exists_groupAt_iff (hp : g.plan d.schema = .ok p) :
    (∃ group, p.groupAt d.rows key = .ok group) ↔
      ∀ r ∈ g.planned d.schema, ∃ v, (d.groupOf g key).reduce r.1 r.2 = .ok v := by
  obtain ⟨-, hplanned⟩ := Grouping.names_of_plan hp
  have hfits := (Grouping.fitsSchema_of_plan hp).reduced
  have hgroup : (∃ group, p.groupAt d.rows key = .ok group) ↔
      ∃ accs, PlannedReduction.accumulateEach p.reduced (d.groupOf g key).rows = .ok accs := by
    rw [groupOf_rows hp]
    exact exists_map_eq_ok
  rw [hgroup, PlannedReduction.accumulateEach, exists_mapM_eq_ok, ← hplanned, List.forall_mem_map]
  apply forall₂_congr
  intro r hr
  have hreduce := (hfits r hr).reduce_eq (d.groupOf g key).rows
  exact (exists_map_eq_ok.symm).trans (by rw [← hreduce]; rfl)

theorem forall₂_finish (group : Dataset) {reduced : List PlannedReduction}
    (hfits : ∀ r ∈ reduced, r.FitsSchema group.schema) {accs : List Accumulator}
    (haccs : PlannedReduction.accumulateEach reduced group.rows = .ok accs) :
    List.Forall₂ (fun r v => group.reduce r.1 r.2 = .ok v)
      (reduced.map fun r => (r.input.name, r.reduction))
      ((accs.zip reduced).map fun q => q.1.finish q.2.output) := by
  rw [PlannedReduction.accumulateEach, mapM_eq_ok] at haccs
  induction haccs with
  | nil => exact .nil
  | cons hacc _ ih =>
    obtain ⟨hhead, htail⟩ := List.forall_mem_cons.1 hfits
    have hreduce := hhead.reduce_eq group.rows
    rw [hacc] at hreduce
    exact .cons hreduce (ih htail)

theorem reducesTo_finish (hp : g.plan d.schema = .ok p) (hkey : key ∈ d.keysOf g) {group : Group}
    (hgroup : p.groupAt d.rows key = .ok group) :
    (d.groupOf g key).ReducesTo g (p.finish group) := by
  obtain ⟨hnames, hplanned⟩ := Grouping.names_of_plan hp
  have hfits := (Grouping.fitsSchema_of_plan hp).reduced
  obtain ⟨first, hfirst⟩ : ∃ first, (d.groupOf g key).rows.head? = some first := by
    obtain ⟨row, hrow, hkey⟩ := List.mem_map.1 (List.mem_eraseDups.1 hkey)
    rw [← Option.isSome_iff_exists, List.isSome_head?]
    apply List.ne_nil_of_mem
    exact List.mem_filter.2 ⟨hrow, by simpa using hkey⟩
  rw [GroupingPlan.groupAt, ← groupOf_rows hp] at hgroup
  obtain ⟨accs, haccs, rfl⟩ := map_eq_ok.1 hgroup
  have hvalues := forall₂_finish (d.groupOf g key) hfits haccs
  rw [hplanned] at hvalues
  refine ⟨first, _, hfirst, hvalues, ?_⟩
  rw [GroupingPlan.finish, hfirst, Option.getD_some, hnames.pick_eq]
  rfl

theorem forall₂_reducesTo (valid : d.Valid) {out : Dataset} (h : d.reduceByKey g = .ok out) :
    List.Forall₂ (fun key row => (d.groupOf g key).ReducesTo g row) (d.keysOf g) out.rows := by
  obtain ⟨p, hp, -⟩ := bind_eq_ok.1 h
  obtain ⟨groups, hgroups, rfl⟩ := (reduceByKey_eq_ok valid hp).1 h
  rw [GroupingPlan.groupsOf, mapM_eq_ok, ← keysOf_eq hp] at hgroups
  have hfinish : ∀ key ∈ d.keysOf g, ∀ group, p.groupAt d.rows key = .ok group →
      (d.groupOf g key).ReducesTo g (p.finish group) := by
    intro key hkey group hgroup
    exact reducesTo_finish hp hkey hgroup
  have hall := (List.forall₂_and_left _ _).2 ⟨hfinish, hgroups⟩
  apply List.forall₂_map_right_iff.2 (hall.imp _)
  rintro key group ⟨hkey, hgroup⟩
  exact hkey group hgroup

/-- A grouping has a result exactly if every reduction has one on every group, and then one row for
each key, in order of occurrence. -/
theorem reduceByKey_eq_groups (d : Dataset) (g : Grouping) {schema : Schema}
    (valid : d.validate = .ok ()) (planned : g.outputSchema d.schema = .ok schema) :
    ((∃ out, d.reduceByKey g = .ok out) ↔
      ∀ key ∈ d.keysOf g, ∀ r ∈ g.planned d.schema,
        ∃ v, (d.groupOf g key).reduce r.1 r.2 = .ok v) ∧
    ∀ out, d.reduceByKey g = .ok out → out.schema = schema ∧
      List.Forall₂ (fun key row => (d.groupOf g key).ReducesTo g row) (d.keysOf g) out.rows := by
  rw [validate_eq_ok] at valid
  obtain ⟨p, hp, rfl⟩ := map_eq_ok.1 planned
  constructor
  · have hgroups :
        (∃ out, d.reduceByKey g = .ok out) ↔ ∃ groups, p.groupsOf d.rows = .ok groups := by
      constructor
      · rintro ⟨out, hout⟩
        obtain ⟨groups, hgroups, -⟩ := (reduceByKey_eq_ok valid hp).1 hout
        exact ⟨groups, hgroups⟩
      · rintro ⟨groups, hgroups⟩
        exact ⟨_, (reduceByKey_eq_ok valid hp).2 ⟨groups, hgroups, rfl⟩⟩
    rw [hgroups, GroupingPlan.groupsOf, exists_mapM_eq_ok, ← keysOf_eq hp]
    apply forall₂_congr
    intro key _
    exact exists_groupAt_iff hp
  · intro out hout
    refine ⟨?_, forall₂_reducesTo valid hout⟩
    obtain ⟨groups, -, rfl⟩ := (reduceByKey_eq_ok valid hp).1 hout
    rfl

theorem reduceByKey_eq_groups_of_three :
    let schema : Schema :=
      ⟨[⟨"name", .string⟩, ⟨"id", .integer⟩, ⟨"n", .long⟩], by decide, by decide⟩
    let output : Schema :=
      ⟨[⟨"name", .string⟩, ⟨"id", .integer⟩, ⟨"sum(n)", .long⟩, ⟨"count(n)", .long⟩], by decide,
        by decide⟩
    let d : Dataset := ⟨schema, [[.string "a", .integer 1, .long 10],
      [.string "a", .null .integer, .null .long], [.string "a", .integer 1, .long 5]]⟩
    let g : Grouping := ⟨["name", "id"], none, [("n", .sum), ("n", .count)]⟩
    d.validate = .ok () ∧ g.outputSchema schema = .ok output ∧
      ∃ out, d.reduceByKey g = .ok out ∧ out.schema = output ∧ out.rows.length = 2 := by
  intro schema output d g
  have valid : d.validate = .ok () := rfl
  have planned : g.outputSchema schema = .ok output := rfl
  obtain ⟨hexists, hrows⟩ := reduceByKey_eq_groups d g valid planned
  have hkeys : d.keysOf g =
      [[some (.text "a"), some (.whole 1)], [some (.text "a"), none]] := rfl
  have hplanned : g.planned schema = [("n", .sum), ("n", .count)] := rfl
  have hreduce : ∀ key ∈ d.keysOf g, ∀ r ∈ g.planned d.schema,
      ∃ v, (d.groupOf g key).reduce r.1 r.2 = .ok v := by
    intro key hkey r hr
    simp only [hkeys, List.mem_cons, List.not_mem_nil, or_false] at hkey
    simp only [hplanned, List.mem_cons, List.not_mem_nil, or_false, d] at hr
    rcases hkey with rfl | rfl <;> rcases hr with rfl | rfl <;> exact ⟨_, rfl⟩
  obtain ⟨out, hout⟩ := hexists.2 hreduce
  obtain ⟨hschema, hgroups⟩ := hrows out hout
  refine ⟨valid, planned, out, hout, hschema, ?_⟩
  rw [← hgroups.length_eq, hkeys]
  rfl

end Dataset

end Tabular
