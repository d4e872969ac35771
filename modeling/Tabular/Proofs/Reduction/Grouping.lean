import Tabular.Proofs.Join.Basic
import Tabular.Proofs.Reduction.Accumulator
import Tabular.Reduction.Grouping

namespace Tabular

/-- A reduction is planned for a column that is there, with the output type it gives. -/
def PlannedReduction.FitsSchema (schema : Schema) (r : PlannedReduction) : Prop :=
  schema.fields[r.position]? = some r.input ∧ r.reduction.outputType r.input.type = .ok r.output

/-- What the accumulator of a planned reduction holds. -/
def PlannedReduction.Holds (r : PlannedReduction) (acc : Accumulator) : Prop :=
  acc.Fits r.input.type r.output

def PlannedReduction.Takes (r : PlannedReduction) (v : Value) : Prop :=
  r.input.type.accepts v = true

/-- What a plan for a schema promises. -/
structure GroupingPlan.FitsSchema (schema : Schema) (p : GroupingPlan) : Prop where
  reduced : ∀ r ∈ p.reduced, r.FitsSchema schema
  fields : p.schema.fields =
    p.keys.filterMap (schema.fields[·]?) ++ p.reduced.map PlannedReduction.field

namespace Grouping

variable {g : Grouping} {schema : Schema}

theorem fitsSchema_of_planColumn {position : Nat} {f : Field} {reduced : List PlannedReduction}
    (hf : schema.fields[position]? = some f) (h : g.planColumn position f = .ok reduced) :
    ∀ r ∈ reduced, r.FitsSchema schema := by
  intro r hr
  obtain ⟨reduction, -, hr⟩ := exists_of_mapM h r hr
  obtain ⟨output, houtput, rfl⟩ := map_eq_ok.1 hr
  exact ⟨hf, houtput⟩

theorem fitsSchema_of_plan {p : GroupingPlan} (h : g.plan schema = .ok p) :
    p.FitsSchema schema := by
  simp only [plan, guard_eq_ok] at h
  obtain ⟨-, h⟩ := h
  obtain ⟨keys, -, h⟩ := bind_eq_ok.1 h
  obtain ⟨_, -, h⟩ := bind_eq_ok.1 h
  obtain ⟨reduced, hreduced, h⟩ := bind_eq_ok.1 h
  obtain ⟨output, houtput, h⟩ := bind_eq_ok.1 h
  cases h
  refine ⟨fun r hr => ?_, Schema.ofFields_eq_ok houtput⟩
  obtain ⟨planned, hplanned, hr⟩ := List.mem_flatten.1 hr
  obtain ⟨column, hcolumn, hplan⟩ := exists_of_mapM hreduced planned hplanned
  have hfield := List.mem_zipIdx_iff_getElem?.1 (List.mem_of_mem_filter hcolumn)
  exact fitsSchema_of_planColumn hfield hplan r hr

end Grouping

namespace GroupingPlan

variable {schema : Schema} {p : GroupingPlan}

/-- A group can be finished to a row of the planned schema. -/
structure FitsGroup (schema : Schema) (p : GroupingPlan) (g : Group) : Prop where
  values : g.values.Fits (p.keys.filterMap fun i => schema.types[i]?)
  accumulators : List.Forall₂ PlannedReduction.Holds p.reduced g.accumulators

theorem FitsSchema.newGroup (h : p.FitsSchema schema) {row : Row} (hrow : row.Fits schema.types) :
    p.FitsGroup schema (p.newGroup row) := by
  refine ⟨hrow.pick p.keys, ?_⟩
  rw [GroupingPlan.newGroup, List.forall₂_map_right_iff, List.forall₂_same]
  exact fun r hr => Accumulator.fits_start (h.reduced r hr).2

theorem fits_reduced {reduced : List PlannedReduction}
    (h : ∀ r ∈ reduced, r.FitsSchema schema) {row : Row} (hrow : row.Fits schema.types) :
    List.Forall₂ PlannedReduction.Takes reduced
      (Row.pick row (reduced.map PlannedReduction.position)) := by
  induction reduced with
  | nil => exact .nil
  | cons r reduced ih =>
    rw [List.forall_mem_cons] at h
    have htail := ih h.2
    have htype : schema.types[r.position]? = some r.input.type := by
      rw [schema.types_getElem?, h.1.1, Option.map_some]
    rcases hrow.getElem? r.position with ⟨hnone, -⟩ | ⟨type, v, hsome, hv, haccepts⟩
    · cases htype.symm.trans hnone
    · cases htype.symm.trans hsome
      rw [Row.pick] at *
      rw [List.map_cons, List.filterMap_cons, hv]
      exact .cons haccepts htail

theorem fits_addValues {reduced : List PlannedReduction} {accs next : List Accumulator}
    {values : Row}
    (haccs : List.Forall₂ PlannedReduction.Holds reduced accs)
    (hvalues : List.Forall₂ PlannedReduction.Takes reduced values)
    (h : addValues accs values = .ok next) : List.Forall₂ PlannedReduction.Holds reduced next := by
  induction haccs generalizing values next with
  | nil =>
    cases hvalues
    cases h
    exact .nil
  | cons hacc haccs ih =>
    cases hvalues with
    | cons hv hvalues =>
      rw [addValues, bind_eq_ok] at h
      obtain ⟨acc', hadd, h⟩ := h
      obtain ⟨rest, hrest, h⟩ := bind_eq_ok.1 h
      cases h
      exact .cons (Accumulator.fits_add hacc hv hadd) (ih hvalues hrest)

theorem FitsSchema.addToGroup (h : p.FitsSchema schema) {row : Row} (hrow : row.Fits schema.types)
    {g g' : Group} (hg : p.FitsGroup schema g) (hadd : p.addToGroup row g = .ok g') :
    p.FitsGroup schema g' := by
  obtain ⟨accs, haccs, hadd⟩ := bind_eq_ok.1 hadd
  cases hadd
  exact ⟨hg.values, fits_addValues hg.accumulators (fits_reduced h.reduced hrow) haccs⟩

theorem FitsSchema.addRow (h : p.FitsSchema schema) {row : Row} (hrow : row.Fits schema.types)
    {groups groups' : List Group} (hgroups : ∀ g ∈ groups, p.FitsGroup schema g)
    (hadd : p.addRow row groups = .ok groups') : ∀ g ∈ groups', p.FitsGroup schema g := by
  induction groups generalizing groups' with
  | nil =>
    obtain ⟨g, hg, hadd⟩ := bind_eq_ok.1 hadd
    cases hadd
    intro g' hg'
    rw [List.mem_singleton.1 hg']
    exact h.addToGroup hrow (h.newGroup hrow) hg
  | cons g groups ih =>
    rw [List.forall_mem_cons] at hgroups
    rw [GroupingPlan.addRow] at hadd
    split at hadd
    · obtain ⟨g', hg', hadd⟩ := bind_eq_ok.1 hadd
      cases hadd
      exact List.forall_mem_cons.2 ⟨h.addToGroup hrow hgroups.1 hg', hgroups.2⟩
    · obtain ⟨rest, hrest, hadd⟩ := bind_eq_ok.1 hadd
      cases hadd
      exact List.forall_mem_cons.2 ⟨hgroups.1, ih hgroups.2 hrest⟩

theorem fits_finish {reduced : List PlannedReduction} {accs : List Accumulator}
    (h : List.Forall₂ PlannedReduction.Holds reduced accs) :
    Row.Fits (reduced.map PlannedReduction.output)
      ((accs.zip reduced).map fun q => q.1.finish q.2.output) := by
  induction h with
  | nil => exact .nil
  | cons hacc h ih => exact .cons (Accumulator.accepts_finish hacc) ih

theorem FitsSchema.finish (h : p.FitsSchema schema) {g : Group} (hg : p.FitsGroup schema g) :
    (p.finish g).Fits p.schema.types := by
  have htypes : p.schema.types = (p.keys.filterMap fun i => schema.types[i]?) ++
      p.reduced.map PlannedReduction.output := by
    rw [Schema.types, h.fields, List.map_append, List.map_filterMap, List.map_map]
    simp only [schema.types_getElem?]
    rfl
  rw [htypes, GroupingPlan.finish]
  exact hg.values.append (fits_finish hg.accumulators)

end GroupingPlan

theorem Dataset.valid_of_reduceByKey {d out : Dataset} {g : Grouping}
    (h : d.reduceByKey g = .ok out) : out.Valid := by
  obtain ⟨p, hp, h⟩ := bind_eq_ok.1 h
  obtain ⟨groups, hgroups, h⟩ := bind_eq_ok.1 h
  cases h
  have hplan := Grouping.fitsSchema_of_plan hp
  have hall : ∀ g ∈ groups, p.FitsGroup d.schema g := by
    refine foldlM_induction (fun groups => ∀ g ∈ groups, p.FitsGroup d.schema g)
      (fun groups row groups' hgroups hstep => ?_) (fun g hg => absurd hg List.not_mem_nil) hgroups
    obtain ⟨_, hvalid, hadd⟩ := bind_eq_ok.1 hstep
    exact hplan.addRow (Schema.validateRow_eq_ok.1 hvalid) hgroups hadd
  intro row hrow
  obtain ⟨g, hg, rfl⟩ := List.mem_map.1 hrow
  exact hplan.finish (hall g hg)

end Tabular
