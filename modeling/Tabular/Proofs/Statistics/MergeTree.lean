import Tabular.Proofs.Statistics.Analysis

namespace Tabular.Analysis

/-- A part that may not have an analysis yet holds the statistics of some rows. -/
def PartSummarizes (types : List ColumnType) (rows : Multiset Row) : Option Analysis → Prop
  | none => rows = 0
  | some a => a.Summarizes types rows

def same (a b : Analysis) : Bool := List.isEqv a.counters b.counters Counter.same

variable {schema : Schema} {seen more : Multiset Row} {a b : Option Analysis}

theorem Summarizes.same {types : List ColumnType} {rows : Multiset Row} {a : Analysis}
    (h : a.Summarizes types rows) : a.same a = true :=
  Summarize.same h

namespace PartSummarizes

theorem getD (h : PartSummarizes schema.types seen a) :
    (a.getD (ofSchema schema)).Summarizes schema.types seen := by
  cases a with
  | none => exact h ▸ Summarizes.ofSchema schema
  | some a => exact h

theorem fold (h : PartSummarizes schema.types seen a) {row : Row}
    (few : (row ::ₘ seen).card < 2 ^ 64) :
    Follows (Summarizes schema.types (row ::ₘ seen)) (check schema.types row)
      (Analysis.fold a schema row) :=
  h.getD.addRow few

theorem foldRows (h : PartSummarizes schema.types seen a) {rows : List Row}
    (few : (↑rows + seen : Multiset Row).card < 2 ^ 64) :
    Follows (PartSummarizes schema.types (↑rows + seen)) (rows.forM (check schema.types))
      (Analysis.foldRows a schema rows) := by
  induction rows generalizing seen a with
  | nil =>
    rw [Multiset.coe_nil, zero_add]
    exact .ok h
  | cons row rows ih =>
    have hforM : (row :: rows).forM (check schema.types) =
        check schema.types row >>= fun _ => rows.forM (check schema.types) := rfl
    rw [hforM, Analysis.foldRows, List.foldlM_cons]
    have hsplit : (↑(row :: rows) + seen : Multiset Row) = ↑rows + row ::ₘ seen := by
      rw [← Multiset.cons_coe, Multiset.cons_add, Multiset.add_cons]
    rw [hsplit] at few ⊢
    have hfew : (row ::ₘ seen).card < 2 ^ 64 := by
      rw [Multiset.card_add] at few
      omega
    have hfirst : Follows (PartSummarizes schema.types (row ::ₘ seen)) (check schema.types row)
        ((Analysis.fold a schema row).map some) :=
      (h.fold hfew).map fun b hb => hb
    exact hfirst.bind fun b hb => ih hb few

theorem mergeParts (ha : PartSummarizes schema.types seen a)
    (hb : PartSummarizes schema.types more b) (few : (seen + more).card < 2 ^ 64) :
    ∃ c, Analysis.mergeParts a b = .ok c ∧ PartSummarizes schema.types (seen + more) c := by
  cases a with
  | none =>
    refine ⟨b, rfl, ?_⟩
    rw [show seen = 0 from ha, zero_add]
    exact hb
  | some a =>
    cases b with
    | none =>
      refine ⟨some a, rfl, ?_⟩
      rw [show more = 0 from hb, add_zero]
      exact ha
    | some b =>
      obtain ⟨c, hc, hsum⟩ := Summarizes.merge ha hb few
      refine ⟨some c, ?_, hsum⟩
      rw [Analysis.mergeParts, hc]
      rfl

theorem eq_nil {rows : List Row} (h : PartSummarizes schema.types ↑rows none) : rows = [] :=
  Multiset.coe_eq_zero _ |>.1 h

end PartSummarizes

/-- A way to analyse a table: parts with their rows, started or not, and the order in which parts
are merged. -/
inductive MergeTree where
  | part (started : Bool) (rows : List Row)
  | merge (left right : MergeTree)

namespace MergeTree

def rows : MergeTree → List Row
  | part _ rows => rows
  | merge left right => left.rows ++ right.rows

def evaluate (schema : Schema) : MergeTree → Except Error (Option Analysis)
  | part started rows => foldRows (if started then some (ofSchema schema) else none) schema rows
  | merge left right => do mergeParts (← left.evaluate schema) (← right.evaluate schema)

theorem evaluate_summarizes (tree : MergeTree) (fits : ∀ row ∈ tree.rows, row.Fits schema.types)
    (few : tree.rows.length < 2 ^ 64) :
    ∃ total, tree.evaluate schema = .ok total ∧ PartSummarizes schema.types tree.rows total := by
  induction tree with
  | part started rows =>
    have hstart : PartSummarizes schema.types 0
        (if started then some (ofSchema schema) else none) := by
      cases started with
      | false => exact rfl
      | true => exact Summarizes.ofSchema schema
    have hok : rows.forM (check schema.types) = .ok () :=
      forM_eq_ok.2 fun row hrow => check_eq_ok.2 (fits row hrow)
    have few' : (↑rows + 0 : Multiset Row).card < 2 ^ 64 := by rwa [add_zero]
    obtain ⟨b, hb, hsum⟩ := (hstart.foldRows few').exists_of_ok hok
    rw [add_zero] at hsum
    exact ⟨b, hb, hsum⟩
  | merge left right ihl ihr =>
    rw [rows, List.length_append] at few
    obtain ⟨a, ha, has⟩ := ihl (fun row h => fits row (List.mem_append_left _ h)) (by omega)
    obtain ⟨b, hb, hbs⟩ := ihr (fun row h => fits row (List.mem_append_right _ h)) (by omega)
    obtain ⟨c, hc, hcs⟩ := has.mergeParts hbs (by
      rwa [Multiset.coe_add, Multiset.coe_card, List.length_append])
    refine ⟨c, bind_eq_ok.2 ⟨a, ha, bind_eq_ok.2 ⟨b, hb, hc⟩⟩, ?_⟩
    rw [rows, ← Multiset.coe_add]
    exact hcs

/-- Every tree over the rows of a table comes to the analysis of one pass over them, and merging is
commutative and associative. -/
theorem evaluate_eq_foldRows (schema : Schema) (rows : List Row) (tree : MergeTree)
    (valid : ∀ row ∈ rows, schema.validateRow row = .ok ()) (dealt : tree.rows.Perm rows)
    (few : rows.length < 2 ^ 64) :
    (∃ whole total, foldRows none schema rows = .ok whole ∧ tree.evaluate schema = .ok total ∧
      total.getD (ofSchema schema) = whole.getD (ofSchema schema) ∧
      (total.getD (ofSchema schema)).same (whole.getD (ofSchema schema)) = true ∧
      (whole = none → rows = []) ∧ (total = none → rows = [])) ∧
    ∀ type, Counter.MergeLaws type := by
  have fits : ∀ row ∈ rows, row.Fits schema.types := fun row hrow =>
    Schema.validateRow_eq_ok.1 (valid row hrow)
  obtain ⟨whole, hwhole, hws⟩ := (part false rows).evaluate_summarizes fits few
  obtain ⟨total, htotal, hts⟩ := tree.evaluate_summarizes
    (fun row hrow => fits row (dealt.mem_iff.1 hrow)) (dealt.length_eq ▸ few)
  have hperm : (tree.rows : Multiset Row) = rows := Multiset.coe_eq_coe.2 dealt
  rw [hperm] at hts
  have heq := hts.getD.unique hws.getD
  refine ⟨⟨whole, total, hwhole, htotal, heq, heq ▸ hts.getD.same, ?_, ?_⟩, Counter.mergeLaws⟩
  · rintro rfl
    exact hws.eq_nil
  · rintro rfl
    exact hts.eq_nil

theorem evaluate_eq_foldRows_of_three :
    let schema : Schema :=
      ⟨[⟨"id", .integer⟩, ⟨"score", .double⟩, ⟨"colour", .categorical⟩], by decide, by decide⟩
    let first : Row := [.integer 1, .double (.neg .zero), .string "red"]
    let second : Row := [.null .integer, .double (.ofInt 3), .string "blue"]
    let third : Row := [.integer 1, .null .double, .null .categorical]
    let tree : MergeTree :=
      .merge (.part true [third]) (.merge (.part true []) (.part false [second, first]))
    ∃ whole total, foldRows none schema [first, second, third] = .ok whole ∧
      tree.evaluate schema = .ok total ∧
      total.getD (ofSchema schema) = whole.getD (ofSchema schema) := by
  intro schema first second third tree
  have valid : ∀ row ∈ [first, second, third], schema.validateRow row = .ok () := by
    intro row hrow
    simp only [List.mem_cons, List.not_mem_nil, or_false] at hrow
    rcases hrow with rfl | rfl | rfl <;> rfl
  have dealt : tree.rows.Perm [first, second, third] :=
    List.reverse_perm [first, second, third]
  obtain ⟨⟨whole, total, hwhole, htotal, heq, -⟩, -⟩ :=
    evaluate_eq_foldRows schema [first, second, third] tree valid dealt (by decide)
  exact ⟨whole, total, hwhole, htotal, heq⟩

end MergeTree

end Tabular.Analysis
