import Tabular.Proofs.Join.Fits
import Tabular.Proofs.Join.NestedLoop
import Tabular.Proofs.Reduction.Distinct

namespace Tabular

namespace Join

/-- Whether the key values of a left and a right row are there and compare equal, one by one. -/
def meets (leftSchema rightSchema : Schema) (leftColumns rightColumns : List String)
    (l r : Row) : Bool :=
  List.isEqv (leftSchema.cells leftColumns l) (rightSchema.cells rightColumns r) Value.meets

variable {leftColumns rightColumns : List String} {j : Join}

theorem Built.agree_eq_meets (h : Built leftColumns rightColumns j) {l r : Row}
    (hl : l.Fits j.left.types) (hr : r.Fits j.right.types)
    (hnan : ∀ v ∈ j.left.cells leftColumns l, v.isNaN = false)
    (hnan' : ∀ v ∈ j.right.cells rightColumns r, v.isNaN = false) :
    j.agree l r = meets j.left j.right leftColumns rightColumns l r := by
  have hleft := hl.pick j.leftKeys
  have hright := hr.pick j.rightKeys
  rw [h.leftKeys.pick_eq, h.types_keys] at hleft
  rw [h.rightKeys.pick_eq] at hright
  have hlength := hl.length_eq.trans j.left.length_types
  have hlength' := hr.length_eq.trans j.right.length_types
  rw [h.agree_eq hlength hlength', hleft.isEqv_sameKey_eq_meets hright hnan hnan', meets]

theorem execute_eq_meets {type : JoinType} {left right : Dataset}
    (built : onColumns type left.schema right.schema leftColumns rightColumns = .ok j)
    (hleft : left.Valid) (hright : right.Valid) (hnan : left.WithoutNaN leftColumns)
    (hnan' : right.WithoutNaN rightColumns) :
    j.execute left.rows right.rows = .ok (nestedLoop type
      (meets left.schema right.schema leftColumns rightColumns) (fun l r => j.leftOf l (some r))
      (fun l => j.leftOf l none) j.rightOf left.rows right.rows) := by
  obtain ⟨rfl, hl, hr, h⟩ := built_of_onColumns built
  rw [Dataset.Valid, ← hl] at hleft
  rw [Dataset.Valid, ← hr] at hright
  rw [Dataset.WithoutNaN, ← hl] at hnan
  rw [Dataset.WithoutNaN, ← hr] at hnan'
  rw [← hl, ← hr]
  have hwidth : ∀ l ∈ left.rows, l.length = j.left.size := by
    intro l hmem
    exact (hleft l hmem).length_eq.trans j.left.length_types
  have hwidth' : ∀ r ∈ right.rows, r.length = j.right.size := by
    intro r hmem
    exact (hright r hmem).length_eq.trans j.right.length_types
  have hjoined := (j.joined_eq_nestedLoop left.rows right.rows).trans <|
    nestedLoop_congr
      (fun l hmem r hmem' => h.agree_eq_meets (hleft l hmem) (hright r hmem') (hnan l hmem)
        (hnan' r hmem'))
      (fun _ _ _ _ => rfl) (fun _ _ => rfl) (fun _ _ => rfl)
  rw [← hjoined]
  rcases j.execute_cases left.rows right.rows with ⟨hok, -⟩ | ⟨-, ⟨l, hmem, hne⟩ | ⟨r, hmem, hne⟩⟩
  · exact hok
  · exact absurd (hwidth l hmem) hne
  · exact absurd (hwidth' r hmem) hne

end Join

namespace Key

/-- In a column, values other than missing ones and NaN have one key exactly if they compare equal,
and so they are counted, grouped and joined. -/
theorem agrees_with_compare :
    (∀ (type : ColumnType) (a b : Value), type.accepts a = true → type.accepts b = true →
      a.isNull = false → b.isNull = false → a.isNaN = false → b.isNaN = false →
      (of? a = of? b ↔ a.compare b = .ok .eq)) ∧
    (∀ (d : Dataset) (column : String), d.validate = .ok () → d.WithoutNaN [column] →
      column ∈ d.schema.names →
      ∃ chosen, Represents Value.comparesEqual chosen (d.schema.present column d.rows) ∧
        d.reduce column .countUnique = .ok (.long (Int64.ofNat chosen.length))) ∧
    (∀ (d out : Dataset) (g : Grouping), d.validate = .ok () → d.WithoutNaN g.keys →
      d.reduceByKey g = .ok out →
      ∃ leaders, Represents (g.alike d.schema) leaders d.rows ∧
        List.Forall₂ (fun leader row => (d.filterRows (g.alike d.schema leader)).ReducesTo g row)
          leaders out.rows) ∧
    ∀ (type : JoinType) (left right : Dataset) (leftColumns rightColumns : List String) (j : Join),
      Join.onColumns type left.schema right.schema leftColumns rightColumns = .ok j →
      left.validate = .ok () → right.validate = .ok () → left.WithoutNaN leftColumns →
      right.WithoutNaN rightColumns →
      j.execute left.rows right.rows = .ok (Join.nestedLoop type
        (Join.meets left.schema right.schema leftColumns rightColumns)
        (fun l r => j.leftOf l (some r)) (fun l => j.leftOf l none) j.rightOf left.rows
        right.rows) := by
  refine ⟨?_, ?_, ?_, ?_⟩
  · intro type a b ha hb hanull hbnull hna hnb
    have hsa := ColumnType.stores_of_accepts ha hanull
    have hsb := ColumnType.stores_of_accepts hb hbnull
    exact hsa.key_eq_iff hsb hna hnb
  · intro d column valid hnan hcolumn
    exact Dataset.reduce_countUnique (Dataset.validate_eq_ok.1 valid) hnan hcolumn
  · intro d out g valid hnan h
    exact Dataset.reduceByKey_classes (Dataset.validate_eq_ok.1 valid) hnan h
  · intro type left right leftColumns rightColumns j built hleft hright hnan hnan'
    exact Join.execute_eq_meets built (Dataset.validate_eq_ok.1 hleft)
      (Dataset.validate_eq_ok.1 hright) hnan hnan'

theorem agrees_with_compare_of_zeros :
    let schema : Schema := ⟨[⟨"id", .integer⟩, ⟨"x", .double⟩], by decide, by decide⟩
    let rightSchema : Schema := ⟨[⟨"key", .integer⟩, ⟨"tag", .string⟩], by decide, by decide⟩
    let d : Dataset := ⟨schema, [[.integer 1, .double .zero],
      [.null .integer, .double Binary.zero.neg], [.integer 1, .null .double]]⟩
    let other : Dataset := ⟨rightSchema,
      [[.integer 1, .string "a"], [.null .integer, .string "b"]]⟩
    let g : Grouping := ⟨["id"], none, [("x", .count)]⟩
    of? (.double .zero) = of? (.double Binary.zero.neg) ∧
      (∃ chosen, Represents Value.comparesEqual chosen [.double .zero, .double Binary.zero.neg] ∧
        d.reduce "x" .countUnique = .ok (.long (Int64.ofNat chosen.length))) ∧
      (∃ out leaders, d.reduceByKey g = .ok out ∧ Represents (g.alike schema) leaders d.rows ∧
        leaders.length = out.rows.length) ∧
      ∃ j, Join.onColumns .inner schema rightSchema ["id"] ["key"] = .ok j ∧
        j.execute d.rows other.rows = .ok [[.integer 1, .double .zero, .string "a"],
          [.integer 1, .null .double, .string "a"]] := by
  intro schema rightSchema d other g
  obtain ⟨values, distinct, groups, join⟩ := agrees_with_compare
  have valid : d.validate = .ok () := rfl
  have valid' : other.validate = .ok () := rfl
  have hequal : (Value.double .zero).compare (.double Binary.zero.neg) = .ok .eq :=
    (Value.compare_of_number? rfl rfl).trans (congrArg Except.ok (by decide +kernel))
  have hids : d.WithoutNaN ["id"] := by decide
  have hxs : d.WithoutNaN ["x"] := by decide
  have hkeys : other.WithoutNaN ["key"] := by decide
  have hout : d.reduceByKey g = .ok
      ⟨⟨[⟨"id", .integer⟩, ⟨"count(x)", .long⟩], by decide, by decide⟩,
      [[.integer 1, .long 2], [.null .integer, .long 1]]⟩ := rfl
  have built : Join.onColumns .inner schema rightSchema ["id"] ["key"] =
      .ok ⟨.inner, schema, rightSchema, [0], [0], [1], [1],
        ⟨[⟨"id", .integer⟩, ⟨"x", .double⟩, ⟨"tag", .string⟩], by decide, by decide⟩⟩ := rfl
  refine ⟨?_, ?_, ?_, ?_⟩
  · exact (values .double _ _ rfl rfl rfl rfl rfl rfl).2 hequal
  · exact distinct d "x" valid hxs (by decide)
  · obtain ⟨leaders, hleaders, hrows⟩ := groups d _ g valid hids hout
    exact ⟨_, leaders, hout, hleaders, hrows.length_eq⟩
  · have hjoin := join .inner d other ["id"] ["key"] _ built valid valid' hids hkeys
    exact ⟨_, built, hjoin⟩

end Key

end Tabular
