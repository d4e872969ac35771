import Tabular.Proofs.Condition.Column
import Tabular.Proofs.Condition.Evaluation
import Tabular.Proofs.Schema

namespace Tabular

/-- The schema has the column that a condition names, and the kind of its operand is compared with
columns of that type. -/
def ColumnCondition.Binds (c : ColumnCondition) (schema : Schema) : Prop :=
  ∃ f ∈ schema.fields, f.name = c.column ∧
    ∃ kind, c.operandType.operandKind? = some kind ∧ f.type ∈ kind.columns

/-- Whether a condition holds of the value that a row has in the column of its name. -/
def ColumnCondition.holdsAt (schema : Schema) (row : Row) (c : ColumnCondition) : Bool :=
  (schema.cell? row c.column).any fun v => (c.evaluate v).toOption == some true

namespace ColumnCondition

variable {c : ColumnCondition} {schema : Schema} {b : BoundCondition}

theorem bind_iff : c.bind schema = .ok b ↔
    ∃ i f, schema.requireColumn c.column = .ok (i, f) ∧ c.supports f.type = true ∧
      b = .column c i := by
  rw [bind, bind_eq_ok]
  constructor
  · rintro ⟨⟨i, f⟩, hcolumn, h⟩
    dsimp only at h
    split at h
    · next hsupports =>
      cases h
      exact ⟨i, f, hcolumn, hsupports, rfl⟩
    · cases h
  · rintro ⟨i, f, hcolumn, hsupports, rfl⟩
    exact ⟨(i, f), hcolumn, if_pos hsupports⟩

theorem IsBuilt.supports_iff (h : c.IsBuilt) {type : ColumnType} : c.supports type = true ↔
    ∃ kind, c.operandType.operandKind? = some kind ∧ type ∈ kind.columns := by
  rw [supports, Matcher.supports_iff, h.operandKind?]
  simp

theorem IsBuilt.binds_iff (h : c.IsBuilt) : (∃ b, c.bind schema = .ok b) ↔ c.Binds schema := by
  constructor
  · rintro ⟨b, hb⟩
    obtain ⟨i, f, hcolumn, hsupports, -⟩ := bind_iff.1 hb
    have hmem := List.mem_of_getElem? (Schema.requireColumn_eq_ok.1 hcolumn).2
    exact ⟨f, hmem, Schema.name_of_requireColumn hcolumn, h.supports_iff.1 hsupports⟩
  · rintro ⟨f, hmem, hname, hkind⟩
    obtain ⟨i, hcolumn⟩ := Schema.exists_requireColumn hmem
    rw [hname] at hcolumn
    exact ⟨_, bind_iff.2 ⟨i, f, hcolumn, h.supports_iff.2 hkind, rfl⟩⟩

theorem IsBuilt.evaluate_cell (h : c.IsBuilt) (hb : c.bind schema = .ok b) {row : Row}
    (hrow : schema.validateRow row = .ok ())
    (hnull : ∀ v, schema.cell? row c.column = some v → v.isNull = false) :
    ∃ v, schema.cell? row c.column = some v ∧ c.evaluate v = .ok (c.holdsAt schema row) := by
  obtain ⟨i, f, hcolumn, hsupports, -⟩ := bind_iff.1 hb
  obtain ⟨hi, hf⟩ := Schema.requireColumn_eq_ok.1 hcolumn
  have htype : schema.types[i]? = some f.type := by
    rw [schema.types_getElem?, hf, Option.map_some]
  rcases (Schema.validateRow_eq_ok.1 hrow).getElem? i with
    ⟨hnone, -⟩ | ⟨type, v, hsome, hv, haccepts⟩
  · cases hnone.symm.trans htype
  · cases hsome.symm.trans htype
    have hcell := (Schema.cell?_of_indexOf? hi row).trans hv
    have hstores := ColumnType.stores_of_accepts haccepts (hnull v hcell)
    obtain ⟨x, hx⟩ := h.exists_evaluate hsupports hstores
    have hholds : c.holdsAt schema row = x := by
      rw [holdsAt, hcell, Option.any_some, hx]
      cases x <;> rfl
    exact ⟨v, hcell, hx.trans (congrArg _ hholds.symm)⟩

theorem evaluateRow_of_cell? (hb : c.bind schema = .ok b) {row : Row} {v : Value}
    (hv : schema.cell? row c.column = some v) : b.evaluateRow row = c.evaluate v := by
  obtain ⟨i, f, hcolumn, -, rfl⟩ := bind_iff.1 hb
  have hi := (Schema.requireColumn_eq_ok.1 hcolumn).1
  rw [Schema.cell?_of_indexOf? hi] at hv
  rw [BoundCondition.evaluateRow, BoundCondition.cell, hv]

end ColumnCondition

namespace Condition

variable {schema : Schema} {t : Condition} {b : BoundCondition} {cs : List Condition}

theorem exists_bindAll_iff (h : ∀ t ∈ cs, (∃ b, t.bind schema = .ok b) ↔
    ∀ c ∈ t.columns, ∃ b, c.bind schema = .ok b) :
    (∃ bs, bindAll schema cs = .ok bs) ↔ ∀ c ∈ columnsOf cs, ∃ b, c.bind schema = .ok b := by
  rw [bindAll_eq_mapM, exists_mapM_eq_ok, forall_columnsOf]
  exact forall₂_congr h

theorem exists_bind_iff : (∃ b, t.bind schema = .ok b) ↔
    ∀ c ∈ t.columns, ∃ b, c.bind schema = .ok b := by
  induction t using induction with
  | column c => simp only [bind, columns, List.forall_mem_singleton]
  | and cs ih =>
    simp only [bind, exists_bind_pure_eq_ok]
    exact exists_bindAll_iff ih
  | or cs ih =>
    simp only [bind, exists_bind_pure_eq_ok]
    exact exists_bindAll_iff ih
  | not c ih =>
    simp only [bind, exists_bind_pure_eq_ok]
    exact ih
  | xor a b iha ihb =>
    rw [columns, List.forall_mem_append, ← iha, ← ihb]
    simp only [bind]
    constructor
    · rintro ⟨_, h⟩
      obtain ⟨x, hx, h⟩ := bind_eq_ok.1 h
      obtain ⟨y, hy, -⟩ := bind_eq_ok.1 h
      exact ⟨⟨x, hx⟩, y, hy⟩
    · rintro ⟨⟨x, hx⟩, y, hy⟩
      exact ⟨.xor x y, bind_eq_ok.2 ⟨x, hx, bind_eq_ok.2 ⟨y, hy, rfl⟩⟩⟩

/-- Where every column condition has an answer on the value it reads, a bound condition has the
answer that its connectives make of them. -/
theorem evaluateRow_bind {row : Row} {test : ColumnCondition → Bool}
    (hb : t.bind schema = .ok b)
    (h : ∀ c ∈ t.columns, ∀ b, c.bind schema = .ok b → b.evaluateRow row = .ok (test c)) :
    b.evaluateRow row = .ok (t.denote test) :=
  (BoundCondition.isEvaluation_row row).eq_denote hb h

/-- A condition binds exactly to the schemas that support its columns, and then answers every row
without a missing value in them as its connectives do. -/
theorem bind_sound (schema : Schema) (t : Condition) (built : ∀ c ∈ t.columns, c.IsBuilt) :
    ((∃ b, t.bind schema = .ok b) ↔ ∀ c ∈ t.columns, c.Binds schema) ∧
      ∀ b row, t.bind schema = .ok b → schema.validateRow row = .ok () →
        (∀ c ∈ t.columns, ∀ v, schema.cell? row c.column = some v → v.isNull = false) →
        (∀ c ∈ t.columns, ∃ v, schema.cell? row c.column = some v ∧
          c.evaluate v = .ok (c.holdsAt schema row)) ∧
        b.evaluateRow row = .ok (t.denote (ColumnCondition.holdsAt schema row)) := by
  constructor
  · rw [exists_bind_iff]
    exact forall₂_congr fun c hc => (built c hc).binds_iff
  · intro b row hb hrow hnull
    have answers : ∀ c ∈ t.columns, ∃ v, schema.cell? row c.column = some v ∧
        c.evaluate v = .ok (c.holdsAt schema row) := by
      intro c hc
      obtain ⟨leaf, hleaf⟩ := exists_bind_iff.1 ⟨b, hb⟩ c hc
      exact (built c hc).evaluate_cell hleaf hrow (hnull c hc)
    refine ⟨answers, evaluateRow_bind hb fun c hc leaf hleaf => ?_⟩
    obtain ⟨v, hv, hanswer⟩ := answers c hc
    rw [ColumnCondition.evaluateRow_of_cell? hleaf hv, hanswer]

theorem bind_sound_of_two :
    let schema : Schema := ⟨[⟨"name", .categorical⟩, ⟨"age", .byte⟩], by decide, by decide⟩
    ∃ adult named b,
      ColumnCondition.long "age" .greaterOrEqual 18 = .ok adult ∧
      ColumnCondition.stringSet "name" .inSet ["x", "y"] = .ok named ∧
      bind schema (.xor (.and [.column adult, .not (.column named)]) (.or [])) = .ok b ∧
      b.evaluateRow [.string "z", .byte 30] = .ok true := by
  intro schema
  let adult : ColumnCondition :=
    ⟨"age", .or, .greaterOrEqual, .scalar (.long 18), .long, .whole 18⟩
  let named : ColumnCondition :=
    ⟨"name", .or, .inSet, .set [.string "x", .string "y"], .string, .textSet ["x", "y"]⟩
  let t : Condition := .xor (.and [.column adult, .not (.column named)]) (.or [])
  have built : ∀ c ∈ t.columns, c.IsBuilt :=
    List.forall_mem_cons.2 ⟨rfl, List.forall_mem_singleton.2 rfl⟩
  obtain ⟨-, sound⟩ := bind_sound schema t built
  refine ⟨adult, named, _, rfl, rfl, rfl, (sound _ _ rfl rfl ?_).2⟩
  refine List.forall_mem_cons.2 ⟨?_, List.forall_mem_singleton.2 ?_⟩
  all_goals
    intro v hv
    cases hv
    rfl

end Condition

end Tabular
