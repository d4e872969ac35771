import Mathlib.Data.List.MinMax
import Mathlib.Data.String.Basic
import Tabular.Proofs.Reduction.Column
import Tabular.Proofs.Value.Order

namespace Tabular

namespace Value

variable {v w : Value}

/-- No value stands beyond this one, which compares with all of them. -/
def IsExtreme (beyond : Ordering) (values : List Value) (v : Value) : Prop :=
  ∀ w ∈ values, ∃ o, v.compare w = .ok o ∧ o ≠ beyond

/-- An extreme with only values before it that are none. -/
def IsFirstExtreme (beyond : Ordering) (values : List Value) (v : Value) : Prop :=
  ∃ before after, values = before ++ v :: after ∧ v.IsExtreme beyond values ∧
    ∀ u ∈ before, ¬u.IsExtreme beyond values

/-- The place of a number among the numbers. -/
noncomputable def numberKey (v : Value) : Int ×ₗ EReal := (v.number?.getD (.whole 0)).rank

theorem Orderly.compare_eq_cmp (h : Orderly [v, w]) (hv : v.family? = some .number)
    (hw : w.family? = some .number) : v.compare w = .ok (cmp v.numberKey w.numberKey) := by
  obtain ⟨m, hm⟩ := exists_number? hv
  obtain ⟨n, hn⟩ := exists_number? hw
  have hmem : v ∈ [v, w] := List.mem_cons_self
  have hmem' : w ∈ [v, w] := List.mem_cons_of_mem _ List.mem_cons_self
  have hrank := Numeric.compare_eq_cmp_rank (h.not_clashes hmem' hmem hm hn)
    (h.not_clashes hmem hmem' hn hm)
  rw [compare_of_number? hm hn, hrank, numberKey, numberKey, hm, hn, Option.getD_some,
    Option.getD_some]

end Value

namespace ColumnType

variable {type : ColumnType} {values : List Value}

theorem orderly_of_stores (h : ∀ v ∈ values, type.Stores v) : Value.Orderly values := by
  cases type with
  | float | double =>
    refine .inl fun v hv => ?_
    cases h v hv
    rfl
  | _ =>
    refine .inr fun v hv => ?_
    cases h v hv
    rfl

/-- The values of a column compare by keys in a linear order, which has a place for every NaN. Byte
arrays do too, but are not reduced to extremes. -/
theorem exists_key (h : type ≠ .bytes) : ∃ (κ : Type) (_ : LinearOrder κ) (key : Value → κ),
    ∀ v w, type.Stores v → type.Stores w → v.compare w = .ok (cmp (key v) (key w)) := by
  cases type with
  | bytes => exact absurd rfl h
  | integer | long | byte | float | double =>
    refine ⟨_, inferInstance, Value.numberKey, fun v w hv hw => ?_⟩
    have horderly : Value.Orderly [v, w] :=
      orderly_of_stores (List.forall_mem_cons.2 ⟨hv, List.forall_mem_singleton.2 hw⟩)
    exact horderly.compare_eq_cmp (by cases hv; rfl) (by cases hw; rfl)
  | string | categorical =>
    refine ⟨String, inferInstance, fun v => (Operand.text? v).getD "", fun v w hv hw => ?_⟩
    cases hv
    cases hw
    exact congrArg Except.ok (cmp_eq_compare _ _).symm
  | boolean =>
    refine ⟨Bool, inferInstance, fun v => (Operand.boolean? v).getD false, fun v w hv hw => ?_⟩
    cases hv
    cases hw
    exact congrArg Except.ok (cmp_eq_compare _ _).symm

/-- The values of a type compare by their keys, and `keep` is the order of a smaller key to a
larger. -/
def Keeps {κ : Type} [LinearOrder κ] (type : ColumnType) (keep : Ordering) (key : Value → κ) :
    Prop :=
  ∀ v w, type.Stores v → type.Stores w → ∃ o, v.compare w = .ok o ∧
    (o = keep ↔ key v < key w) ∧ (o = keep.swap ↔ key w < key v)

theorem exists_keeps (h : type ≠ .bytes) {keep : Ordering} (hkeep : keep ≠ .eq) :
    ∃ (κ : Type) (_ : LinearOrder κ) (key : Value → κ), type.Keeps keep key := by
  obtain ⟨κ, _, key, hkey⟩ := exists_key h
  cases keep with
  | eq => exact absurd rfl hkeep
  | lt =>
    refine ⟨κ, inferInstance, key, fun v w hv hw => ⟨_, hkey v w hv hw, ?_, ?_⟩⟩
    · exact cmp_eq_lt_iff _ _
    · exact cmp_eq_gt_iff _ _
  | gt =>
    refine ⟨κᵒᵈ, inferInstance, fun v => .toDual (key v),
      fun v w hv hw => ⟨_, hkey v w hv hw, ?_, ?_⟩⟩
    · exact cmp_eq_gt_iff _ _
    · exact cmp_eq_lt_iff _ _

end ColumnType

section Keeps

variable {κ : Type} [LinearOrder κ] {key : Value → κ} {keep : Ordering} {type : ColumnType}
  {values : List Value} {v : Value}

theorem exists_append_of_argmin (h : values.argmin key = some v) :
    ∃ before after, values = before ++ v :: after ∧ ∀ u ∈ before, key v < key u := by
  induction values using List.reverseRecOn with
  | nil => cases h
  | append_singleton values w ih =>
    rw [List.argmin_concat] at h
    cases hbest : values.argmin key with
    | none =>
      rw [hbest] at h
      cases h
      rw [List.argmin_eq_none.1 hbest]
      exact ⟨[], [], rfl, fun u hu => absurd hu List.not_mem_nil⟩
    | some best =>
      rw [hbest] at h
      dsimp only at h
      split at h
      · next hless =>
        cases h
        refine ⟨values, [], rfl, fun u hu => ?_⟩
        exact hless.trans_le (List.le_of_mem_argmin hu hbest)
      · cases h
        obtain ⟨before, after, rfl, hbefore⟩ := ih hbest
        exact ⟨before, after ++ [w], by rw [List.append_assoc]; rfl, hbefore⟩

theorem ColumnType.Keeps.isFirstExtreme (h : type.Keeps keep key)
    (hvalues : ∀ v ∈ values, type.Stores v) (hv : values.argmin key = some v) :
    v.IsFirstExtreme keep.swap values := by
  have hmem := List.argmin_mem hv
  obtain ⟨before, after, hvalue, hbefore⟩ := exists_append_of_argmin hv
  refine ⟨before, after, hvalue, fun w hw => ?_, fun u hu hextreme => ?_⟩
  · obtain ⟨o, ho, -, hbeyond⟩ := h v w (hvalues v hmem) (hvalues w hw)
    exact ⟨o, ho, fun hswap => (List.le_of_mem_argmin hw hv).not_gt (hbeyond.1 hswap)⟩
  · have hmem' : u ∈ values := by
      rw [hvalue]
      exact List.mem_append_left _ hu
    obtain ⟨o, ho, -, hbeyond⟩ := h u v (hvalues u hmem') (hvalues v hmem)
    obtain ⟨o', ho', hne⟩ := hextreme v hmem
    cases ho.symm.trans ho'
    exact hne (hbeyond.2 (hbefore u hu))

theorem Accumulator.addPresent_extreme_some {best : Value} {o : Ordering}
    (h : v.compare best = .ok o) : (extreme keep (some best)).addPresent v =
      .ok (extreme keep (some (if o = keep then v else best))) := by
  rw [addPresent, h]
  rfl

/-- The value kept so far is the first of those with the smallest key. -/
theorem ColumnType.Keeps.foldlM_extreme (h : type.Keeps keep key)
    (hvalues : ∀ v ∈ values, type.Stores v) :
    values.foldlM Accumulator.addPresent (.extreme keep none) =
      .ok (.extreme keep (values.argmin key)) := by
  -- on the last value, which takes over from the best of the others only with a smaller key
  induction values using List.reverseRecOn with
  | nil => rfl
  | append_singleton values v ih =>
    obtain ⟨hvalues, hv⟩ := List.forall_mem_append.1 hvalues
    rw [List.foldlM_append, ih hvalues, List.argmin_concat]
    cases hbest : values.argmin key with
    | none => rfl
    | some best =>
      obtain ⟨o, ho, hless, -⟩ :=
        h v best (hv v (List.mem_singleton_self v)) (hvalues best (List.argmin_mem hbest))
      change (Accumulator.extreme keep (some best)).addPresent v >>= pure =
        .ok (.extreme keep (if key v < key best then some v else some best))
      rw [Accumulator.addPresent_extreme_some ho]
      by_cases hlt : key v < key best
      · rw [if_pos (hless.2 hlt), if_pos hlt]
        rfl
      · rw [if_neg (mt hless.1 hlt), if_neg hlt]
        rfl

end Keeps

namespace Dataset

variable {d : Dataset} {f : Field} {r : Reduction} {keep : Ordering}

/-- A reduction of a column results in the first of its values that no other stands beyond, and in a
missing value if there is no value. -/
def ReducesToExtreme (d : Dataset) (f : Field) (r : Reduction) (beyond : Ordering) : Prop :=
  ∃ v, d.reduce f.name r = .ok v ∧
    (v = .null f.type ↔ d.schema.present f.name d.rows = []) ∧
    (d.schema.present f.name d.rows ≠ [] →
      v.IsFirstExtreme beyond (d.schema.present f.name d.rows))

theorem reducesToExtreme_of_start (valid : d.Valid) (hf : f ∈ d.schema.fields)
    (htype : f.type ≠ .bytes) (houtput : r.outputType f.type = .ok f.type) (hkeep : keep ≠ .eq)
    (hstart : Accumulator.start r f.type = .extreme keep none) :
    d.ReducesToExtreme f r keep.swap := by
  obtain ⟨κ, _, key, hkeeps⟩ := f.type.exists_keeps htype hkeep
  have hstores := present_stores valid hf
  have hskips : (Accumulator.start r f.type).SkipsMissing := by
    rw [hstart]
    trivial
  have hreduce := reduce_eq_foldlM_addPresent valid hf houtput hskips
  rw [ReducesToExtreme, hreduce, hstart, hkeeps.foldlM_extreme hstores]
  generalize d.schema.present f.name d.rows = present at hstores ⊢
  cases hbest : present.argmin key with
  | none =>
    have hempty := List.argmin_eq_none.1 hbest
    exact ⟨_, rfl, iff_of_true rfl hempty, fun hne => absurd hempty hne⟩
  | some v =>
    have hmem := List.argmin_mem hbest
    refine ⟨v, rfl, iff_of_false ?_ (List.ne_nil_of_mem hmem), fun _ => ?_⟩
    · rintro rfl
      cases (hstores _ hmem).isNull
    · exact hkeeps.isFirstExtreme hstores hbest

/-- The extremes of a column that is not one of byte arrays; of equal values it is the first, and
NaN values stand at the ends. -/
theorem reduce_min_max (valid : d.validate = .ok ()) (hf : f ∈ d.schema.fields)
    (htype : f.type ≠ .bytes) : d.ReducesToExtreme f .min .gt ∧ d.ReducesToExtreme f .max .lt := by
  have hvalid := validate_eq_ok.1 valid
  have houtput (r : Reduction) (hr : r = .min ∨ r = .max) : r.outputType f.type = .ok f.type := by
    rcases hr with rfl | rfl <;> exact if_neg htype
  constructor
  · exact reducesToExtreme_of_start hvalid hf htype (houtput _ (.inl rfl)) (by decide) rfl
  · exact reducesToExtreme_of_start hvalid hf htype (houtput _ (.inr rfl)) (by decide) rfl

theorem reduce_min_max_of_zeros :
    let f : Field := ⟨"x", .double⟩
    let d : Dataset := ⟨⟨[f], by decide, by decide⟩, [[.null .double], [.double .nan],
      [.double Binary.zero.neg], [.double .zero], [.double (.infinity false)]]⟩
    let present : List Value := [.double .nan, .double Binary.zero.neg, .double .zero,
      .double (.infinity false)]
    d.validate = .ok () ∧ f.type ≠ .bytes ∧
      d.reduce "x" .min = .ok (.double Binary.zero.neg) ∧
      (Value.double Binary.zero.neg).IsFirstExtreme .gt present ∧
      d.reduce "x" .max = .ok (.double .nan) ∧
      (Value.double .nan).IsFirstExtreme .lt present := by
  intro f d present
  have valid : d.validate = .ok () := rfl
  have htype : f.type ≠ .bytes := by decide
  have hne : present ≠ [] := List.cons_ne_nil _ _
  have hleast : d.reduce "x" .min = .ok (.double Binary.zero.neg) := by decide +kernel
  have hgreatest : d.reduce "x" .max = .ok (.double .nan) := by decide +kernel
  obtain ⟨⟨v, hv, -, hmin⟩, w, hw, -, hmax⟩ :=
    reduce_min_max valid (List.mem_singleton_self f) htype
  cases hleast.symm.trans hv
  cases hgreatest.symm.trans hw
  exact ⟨valid, htype, hleast, hmin hne, hgreatest, hmax hne⟩

end Dataset

end Tabular
