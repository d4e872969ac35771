import Tabular.Proofs.Join.Fits
import Tabular.Proofs.Reduction.Grouping
import Tabular.Proofs.Transform

namespace Tabular

/-- A join that was made by naming key columns. -/
def Join.IsBuilt (j : Join) : Prop :=
  ∃ type left right leftColumns rightColumns,
    onColumns type left right leftColumns rightColumns = .ok j

namespace Dataset

/-- An operation on a dataset; a join comes with a checked dataset for its other side. -/
inductive Operation where
  | filterRows (p : Row → Bool)
  | filterWhere (c : Condition)
  | removeWhere (c : Condition)
  | mapRows (f : Row → Row)
  | replaceWhere (column : String) (v : Value) (c : Condition)
  | reduceByKey (g : Grouping)
  | join (j : Join) (built : j.IsBuilt) (side : Side) (other : Dataset)
    (valid : other.validate = .ok ())

/-- The dataset that an operation makes, if it succeeds. -/
def Operation.apply (d : Dataset) : Operation → Except Error Dataset
  | filterRows p => .ok (d.filterRows p)
  | filterWhere c => d.filterWhere c
  | removeWhere c => d.removeWhere c
  | mapRows f => d.mapRows f
  | replaceWhere column v c => d.replaceWhere column v c
  | reduceByKey g => d.reduceByKey g
  | join j _ .left other _ => j.datasets d other
  | join j _ .right other _ => j.datasets other d

/-- The datasets that operations make one after the other, each of the last one that was made. -/
def produced (d : Dataset) : List Operation → List Dataset
  | [] => []
  | op :: ops =>
    match op.apply d with
    | .ok next => next :: produced next ops
    | .error _ => produced d ops

variable {d next : Dataset}

theorem Valid.apply (h : d.Valid) (op : Operation) (hnext : op.apply d = .ok next) :
    next.Valid := by
  cases op with
  | filterRows p =>
    cases hnext
    exact h.filterRows p
  | filterWhere c => exact h.retain hnext
  | removeWhere c => exact h.retain hnext
  | mapRows f => exact valid_of_mapRows hnext
  | replaceWhere column v c => exact h.replaceWhere hnext
  | reduceByKey g => exact valid_of_reduceByKey hnext
  | join j built side other valid =>
    obtain ⟨type, left, right, leftColumns, rightColumns, hbuilt⟩ := built
    have hparts := (Join.built_of_onColumns hbuilt).2.2.2
    have hother := validate_eq_ok.1 valid
    cases side with
    | left => exact hparts.valid_datasets h hother hnext
    | right => exact hparts.valid_datasets hother h hnext

theorem Valid.produced (h : d.Valid) (ops : List Operation) :
    ∀ out ∈ d.produced ops, out.Valid := by
  induction ops generalizing d with
  | nil => exact fun _ hout => absurd hout List.not_mem_nil
  | cons op ops ih =>
    rw [Dataset.produced]
    cases hnext : op.apply d with
    | error e => exact ih h
    | ok next =>
      have hvalid := h.apply op hnext
      exact List.forall_mem_cons.2 ⟨hvalid, ih hvalid⟩

/-- Every dataset that operations produce from a checked one passes the check of its own schema, so
that every cell is accepted by its column. -/
theorem validate_of_mem_produced {schema : Schema} {rows : List Row} {d : Dataset}
    (checked : Dataset.checked schema rows = .ok d) (ops : List Operation) :
    ∀ out ∈ d.produced ops, out.validate = .ok () ∧ ∀ row ∈ out.rows,
      row.length = out.schema.size ∧
        ∀ p ∈ out.schema.fields.zip row, p.1.type.accepts p.2 = true := by
  obtain ⟨_, hvalid, rfl⟩ := map_eq_ok.1 checked
  intro out hout
  have h := (validate_eq_ok.1 hvalid).produced ops out hout
  exact ⟨validate_eq_ok.2 h, fun row hrow => Schema.fits_iff.1 (h row hrow)⟩

theorem validate_of_mem_produced_of_two :
    let schema : Schema := ⟨[⟨"colour", .categorical⟩, ⟨"n", .integer⟩], by decide, by decide⟩
    let reduced : Schema :=
      ⟨[⟨"colour", .categorical⟩, ⟨"mean(n)", .double⟩], by decide, by decide⟩
    let other : Schema := ⟨[⟨"key", .categorical⟩, ⟨"weight", .long⟩], by decide, by decide⟩
    let rows : List Row := [[.string "red", .integer 3], [.string "red", .null .integer]]
    let partners : Dataset := ⟨other, [[.null .categorical, .long 7]]⟩
    ∃ d j built valid,
      Dataset.checked schema rows = .ok d ∧
      Join.onColumns .fullOuter reduced other ["colour"] ["key"] = .ok j ∧
      (d.produced [.reduceByKey ⟨["colour"], some .mean, []⟩,
        .join j built .left partners valid]).length = 2 ∧
      ∀ out ∈ d.produced [.reduceByKey ⟨["colour"], some .mean, []⟩,
        .join j built .left partners valid], out.validate = .ok () := by
  intro schema reduced other rows partners
  have built : Join.onColumns .fullOuter reduced other ["colour"] ["key"] =
      .ok ⟨.fullOuter, reduced, other, [0], [0], [1], [1],
        ⟨[⟨"colour", .categorical⟩, ⟨"mean(n)", .double⟩, ⟨"weight", .long⟩], by decide,
          by decide⟩⟩ := rfl
  have checked : Dataset.checked schema rows = .ok ⟨schema, rows⟩ := rfl
  refine ⟨_, _, ⟨_, _, _, _, _, built⟩, rfl, checked, built, rfl, ?_⟩
  exact fun out hout => (validate_of_mem_produced checked _ out hout).1

end Dataset

end Tabular
