import Tabular.Proofs.Condition.Binding
import Tabular.Proofs.Transform.Replacement
import Tabular.Reduction.Accumulator

namespace Tabular

/-- An error is reported to the caller, unless the run stops at it. -/
def Error.isReported : Error → Bool
  | .outsideRow _ _ => false
  | _ => true

/-- Every failure is reported. -/
def Reports {α : Type} (x : Except Error α) : Prop := ∀ e, x = .error e → e.isReported = true

namespace Reports

variable {α β : Type} {x : Except Error α}

theorem ok (a : α) : Reports (.ok a) := by
  rintro _ ⟨⟩

theorem error {e : Error} (he : e.isReported = true) : Reports (.error e : Except Error α) := by
  rintro _ ⟨⟩
  exact he

theorem bind (hx : Reports x) {f : α → Except Error β} (hf : ∀ a, Reports (f a)) :
    Reports (x >>= f) := by
  cases x with
  | error e => exact .error (hx e rfl)
  | ok a => exact hf a

theorem ite {p : Prop} [Decidable p] {y : Except Error α} (hx : Reports x) (hy : Reports y) :
    Reports (if p then x else y) := by
  split
  · exact hx
  · exact hy

theorem foldlM {f : β → α → Except Error β} (hf : ∀ b a, Reports (f b a)) (xs : List α) (b : β) :
    Reports (xs.foldlM f b) := by
  induction xs generalizing b with
  | nil => exact .ok b
  | cons a xs ih =>
    rw [List.foldlM_cons]
    exact (hf b a).bind ih

theorem ne_outsideRow (hx : Reports x) (i width : Nat) : x ≠ .error (.outsideRow i width) :=
  fun h => Bool.false_ne_true (hx _ h)

end Reports

namespace Value

theorem reports_toInt64 (v : Value) : Reports v.toInt64 := by
  rw [toInt64]
  split
  · exact .ok _
  · exact .ok _
  · exact .error rfl

theorem reports_toDouble (v : Value) : Reports v.toDouble := by
  rw [toDouble]
  split
  · exact .ok _
  · exact .ok _
  · exact .error rfl

theorem reports_compare (v w : Value) : Reports (v.compare w) := by
  rw [compare.eq_def]
  split
  · exact .ok _
  · exact .ok _
  · exact .ok _
  · exact .error rfl
  · exact .error rfl
  · split
    · exact .ok _
    · exact .error rfl

end Value

theorem Schema.reports_requireColumn (s : Schema) (name : String) :
    Reports (s.requireColumn name) := by
  rw [requireColumn]
  split
  · exact .ok _
  · exact .error rfl

theorem Operator.reports_holds (op : Operator) (order : Option Ordering) :
    Reports (op.holds order) := by
  cases op with
  | inSet | notInSet => exact .error rfl
  | _ => exact .ok _

namespace ColumnCondition

theorem reports_textOf (c : ColumnCondition) (v : Value) : Reports (c.textOf v) := by
  cases v with
  | string s => exact .ok s
  | _ => exact .error rfl

theorem reports_booleanOf (c : ColumnCondition) (v : Value) : Reports (c.booleanOf v) := by
  cases v with
  | boolean b => exact .ok b
  | _ => exact .error rfl

theorem reports_evaluate (c : ColumnCondition) (v : Value) : Reports (c.evaluate v) := by
  rw [evaluate]
  cases c.matcher with
  | whole n => exact v.reports_toInt64.bind fun _ => c.op.reports_holds _
  | real x => exact v.reports_toDouble.bind fun _ => c.op.reports_holds _
  | text s => exact (c.reports_textOf v).bind fun _ => c.op.reports_holds _
  | boolean b => exact (c.reports_booleanOf v).bind fun _ => c.op.reports_holds _
  | wholeSet members => exact v.reports_toInt64.bind fun _ => .ok _
  | realSet members => exact v.reports_toDouble.bind fun _ => .ok _
  | textSet members => exact (c.reports_textOf v).bind fun _ => .ok _
  | booleanSet members => exact (c.reports_booleanOf v).bind fun _ => .ok _

theorem reports_cell (c : ColumnCondition) (i : Nat) (row : Row) :
    Reports (BoundCondition.cell c i row) := by
  rw [BoundCondition.cell]
  split
  · exact c.reports_evaluate _
  · exact .error rfl

theorem reports_bind (c : ColumnCondition) (schema : Schema) : Reports (c.bind schema) := by
  refine (schema.reports_requireColumn c.column).bind fun p => ?_
  exact .ite (.ok _) (.error rfl)

end ColumnCondition

namespace Condition

variable {schema : Schema} {t : Condition} {b : BoundCondition}

theorem reports_bindAll {cs : List Condition} (h : ∀ t ∈ cs, Reports (t.bind schema)) :
    Reports (bindAll schema cs) := by
  rw [bindAll_eq_mapM]
  intro e he
  obtain ⟨t, ht, het⟩ := exists_of_mapM_error he
  exact h t ht e het

theorem reports_bind (t : Condition) (schema : Schema) : Reports (t.bind schema) := by
  induction t using induction with
  | column c => exact c.reports_bind schema
  | and cs ih => exact (reports_bindAll ih).bind fun _ => .ok _
  | or cs ih => exact (reports_bindAll ih).bind fun _ => .ok _
  | not c ih => exact ih.bind fun _ => .ok _
  | xor a b iha ihb => exact iha.bind fun _ => ihb.bind fun _ => .ok _

/-- A row that is too short for a column that the condition reads is reported, like every other
failure. -/
theorem reports_evaluateRow (hb : t.bind schema = .ok b) (row : Row) :
    Reports (b.evaluateRow row) := by
  intro e he
  obtain ⟨c, -, leaf, hleaf, he⟩ := (BoundCondition.isEvaluation_row row).exists_of_error hb he
  obtain ⟨i, f, -, -, rfl⟩ := ColumnCondition.bind_iff.1 hleaf
  exact c.reports_cell i row e he

end Condition

namespace Accumulator

theorem reports_addPresent (acc : Accumulator) (v : Value) : Reports (acc.addPresent v) := by
  rw [addPresent.eq_def]
  split
  · exact .ok _
  · exact .ok _
  · exact v.reports_toInt64.bind fun _ => .ok _
  · exact v.reports_toInt64.bind fun _ => Reports.bind (.ite (.ok _) (.error rfl)) fun _ => .ok _
  · exact v.reports_toDouble.bind fun _ => .ok _
  · exact v.reports_toDouble.bind fun _ => .ok _
  · exact .ok _
  · exact (v.reports_compare _).bind fun _ => .ok _
  · exact .ok _
  · exact .ok _
  · exact .ok _

theorem reports_add (acc : Accumulator) (v : Value) : Reports (acc.add v) := by
  rw [add.eq_def]
  split
  · exact .ok _
  · exact .ite (.ok _) (reports_addPresent _ v)

end Accumulator

theorem Reduction.reports_outputType (r : Reduction) (input : ColumnType) :
    Reports (r.outputType input) := by
  cases r with
  | count | countUnique | first | last => exact .ok _
  | sum | mean => exact .ite (.ok _) (.error rfl)
  | min | max => exact .ite (.error rfl) (.ok _)

theorem Row.reports_reducedCell (row : Row) (i : Nat) (column : String) :
    Reports (row.reducedCell i column) := by
  rw [reducedCell]
  split
  · exact .ok _
  · exact .error rfl

theorem Dataset.reports_reduce (d : Dataset) (column : String) (r : Reduction) :
    Reports (d.reduce column r) := by
  refine (d.schema.reports_requireColumn column).bind fun p => ?_
  refine (r.reports_outputType p.2.type).bind fun output => Reports.bind ?_ fun _ => .ok _
  refine Reports.foldlM (fun acc row => ?_) _ _
  exact (row.reports_reducedCell p.1 column).bind acc.reports_add

namespace BoundCondition

variable {b : BoundCondition} {i : Nat} {v : Value} {row : Row} {rows : List Row} {e : Error}

/-- The rows are replaced one after the other up to one of some width on which the condition holds
and which ends before the position. -/
def RunsOut (b : BoundCondition) (i : Nat) (rows : List Row) (width : Nat) : Prop :=
  ∃ before row after, rows = before ++ row :: after ∧
    (∀ r ∈ before, b.evaluateRow r = .ok false ∨ (b.evaluateRow r = .ok true ∧ i < r.length)) ∧
    b.evaluateRow row = .ok true ∧ row.length = width ∧ width ≤ i

theorem replaceRow_eq_error : b.replaceRow i v row = .error e ↔
    b.evaluateRow row = .error e ∨
      (b.evaluateRow row = .ok true ∧ row.length ≤ i ∧ .outsideRow i row.length = e) := by
  rw [replaceRow, bind_eq_error]
  refine or_congr_right ?_
  constructor
  · rintro ⟨answer, hanswer, h⟩
    cases answer with
    | false => cases h
    | true =>
      by_cases hi : i < row.length
      · simp [Row.replaceAt, hi] at h
      · simp only [Row.replaceAt, hi] at h
        exact ⟨hanswer, Nat.le_of_not_lt hi, Except.error.inj h⟩
  · rintro ⟨htrue, hi, rfl⟩
    exact ⟨true, htrue, if_neg (Nat.not_lt.2 hi)⟩

theorem firstError_outsideRow_iff (hb : ∀ row, Reports (b.evaluateRow row)) {j width : Nat} :
    FirstError (b.replaceRow i v) rows (.outsideRow j width) ↔ i = j ∧ b.RunsOut i rows width := by
  simp only [FirstError, RunsOut, exists_replaceRow_iff, replaceRow_eq_error]
  constructor
  · rintro ⟨before, row, after, hrows, hbefore, herror | ⟨htrue, hi, herror⟩⟩
    · exact absurd herror ((hb row).ne_outsideRow j width)
    · cases herror
      exact ⟨rfl, before, row, after, hrows, hbefore, htrue, rfl, hi⟩
  · rintro ⟨rfl, before, row, after, hrows, hbefore, htrue, rfl, hi⟩
    exact ⟨before, row, after, hrows, hbefore, .inr ⟨htrue, hi, rfl⟩⟩

theorem not_runsOut (h : ∀ row ∈ rows, i < row.length) (width : Nat) : ¬b.RunsOut i rows width := by
  rintro ⟨before, row, after, rfl, -, -, rfl, hi⟩
  have hlt := h row (List.mem_append_right _ List.mem_cons_self)
  omega

end BoundCondition

namespace Dataset

variable {d : Dataset} {column : String} {v : Value} {c : Condition} {e : Error}

theorem replaceWhere_eq_error : d.replaceWhere column v c = .error e ↔
    d.schema.requireColumn column = .error e ∨
      ∃ i f, d.schema.requireColumn column = .ok (i, f) ∧
        ((f.type.accepts v = false ∧ .typeMismatch (.forColumn f.type f.name) (.value v) = e) ∨
          (f.type.accepts v = true ∧ (c.bind d.schema = .error e ∨
            ∃ b, c.bind d.schema = .ok b ∧ FirstError (b.replaceRow i v) d.rows e))) := by
  rw [replaceWhere, bind_eq_error, Prod.exists]
  refine or_congr_right (exists_congr fun i => exists_congr fun f => and_congr_right fun _ => ?_)
  rw [guard_eq_error, Bool.not_eq_true', Bool.not_eq_false, bind_eq_error]
  refine or_congr_right (and_congr_right fun _ => or_congr_right (exists_congr fun b => ?_))
  refine and_congr_right fun _ => ?_
  rw [← (failsWith_mapM (b.replaceRow i v)).iff, bind_eq_error]
  refine or_iff_left ?_
  rintro ⟨rows, -, h⟩
  cases h

theorem replaceWhere_eq_outsideRow {i width : Nat} :
    d.replaceWhere column v c = .error (.outsideRow i width) ↔
      ∃ f b, d.schema.requireColumn column = .ok (i, f) ∧ f.type.accepts v = true ∧
        c.bind d.schema = .ok b ∧ b.RunsOut i d.rows width := by
  rw [replaceWhere_eq_error]
  constructor
  · rintro (hcolumn | ⟨j, f, hcolumn, ⟨-, herror⟩ | ⟨haccepts, hbind | ⟨b, hb, hrows⟩⟩⟩)
    · exact absurd hcolumn ((d.schema.reports_requireColumn column).ne_outsideRow i width)
    · cases herror
    · exact absurd hbind ((c.reports_bind d.schema).ne_outsideRow i width)
    · have hreports := Condition.reports_evaluateRow hb
      obtain ⟨rfl, hrunsOut⟩ := (BoundCondition.firstError_outsideRow_iff hreports).1 hrows
      exact ⟨f, b, hcolumn, haccepts, hb, hrunsOut⟩
  · rintro ⟨f, b, hcolumn, haccepts, hb, hrunsOut⟩
    have hreports := Condition.reports_evaluateRow hb
    have hrows := (BoundCondition.firstError_outsideRow_iff (v := v) hreports).2 ⟨rfl, hrunsOut⟩
    exact .inr ⟨i, f, hcolumn, .inr ⟨haccepts, .inr ⟨b, hb, hrows⟩⟩⟩

/-- A replacement stops the run exactly if the condition holds on a row that ends before the column,
while every row before it can be replaced. -/
theorem replaceWhere_stops_iff (d : Dataset) (column : String) (v : Value) (c : Condition) :
    (∀ i width, d.replaceWhere column v c = .error (.outsideRow i width) ↔
      ∃ f b, d.schema.requireColumn column = .ok (i, f) ∧ f.type.accepts v = true ∧
        c.bind d.schema = .ok b ∧ b.RunsOut i d.rows width) ∧
    ((∀ row ∈ d.rows, d.schema.size ≤ row.length) → Reports (d.replaceWhere column v c)) ∧
    (∀ b row, c.bind d.schema = .ok b → Reports (b.evaluateRow row)) ∧
    ∀ r, Reports (d.reduce column r) := by
  refine ⟨fun _ _ => replaceWhere_eq_outsideRow, fun hwide => ?_,
    fun _ row hb => Condition.reports_evaluateRow hb row, d.reports_reduce column⟩
  intro e he
  cases e with
  | outsideRow i width =>
    obtain ⟨f, b, hcolumn, -, -, hrunsOut⟩ := replaceWhere_eq_outsideRow.1 he
    have hi := Schema.indexOf?_lt (Schema.requireColumn_eq_ok.1 hcolumn).1
    have hreach : ∀ row ∈ d.rows, i < row.length :=
      fun row hrow => Nat.lt_of_lt_of_le hi (hwide row hrow)
    exact absurd hrunsOut (BoundCondition.not_runsOut hreach width)
  | _ => rfl

theorem replaceWhere_stops_iff_of_third :
    let schema : Schema := ⟨[⟨"a", .long⟩, ⟨"b", .long⟩], by decide, by decide⟩
    let d : Dataset := ⟨schema, [[.long 0], [.long 1, .long 2], [.long 1]]⟩
    ∃ one, ColumnCondition.long "a" .equal 1 = .ok one ∧
      d.replaceWhere "b" (.long 5) (.column one) = .error (.outsideRow 1 1) ∧
      Reports (d.reduce "b" .sum) ∧
      Reports
        (Dataset.replaceWhere ⟨schema, [[.long 1, .long 2]]⟩ "b" (.long 5) (.column one)) := by
  intro schema d
  let one : ColumnCondition := ⟨"a", .or, .equal, .scalar (.long 1), .long, .whole 1⟩
  obtain ⟨hstops, -, -, hreduce⟩ := replaceWhere_stops_iff d "b" (.long 5) (.column one)
  obtain ⟨-, hwide, -⟩ :=
    replaceWhere_stops_iff ⟨schema, [[.long 1, .long 2]]⟩ "b" (.long 5) (.column one)
  refine ⟨one, rfl, (hstops 1 1).2 ?_, hreduce .sum, hwide (by decide)⟩
  refine ⟨⟨"b", .long⟩, .column one 0, rfl, rfl, rfl, [[.long 0], [.long 1, .long 2]], [.long 1],
    [], rfl, ?_, rfl, rfl, Nat.le_refl 1⟩
  refine List.forall_mem_cons.2 ⟨.inl rfl, List.forall_mem_singleton.2 (.inr ⟨rfl, ?_⟩)⟩
  decide

/-- On a row without a cell in the column a condition and a reduction report it, and the replacement
stops the run. -/
theorem not_reports_replaceWhere_of_short :
    let schema : Schema := ⟨[⟨"a", .long⟩, ⟨"b", .long⟩], by decide, by decide⟩
    let d : Dataset := ⟨schema, [[.long 1]]⟩
    ∃ one, ColumnCondition.long "a" .equal 1 = .ok one ∧
      d.reduce "b" .sum = .error (.schema (.reducedColumn 1 1 "b")) ∧
      d.replaceWhere "b" (.long 5) (.column one) = .error (.outsideRow 1 1) ∧
      ¬Reports (d.replaceWhere "b" (.long 5) (.column one)) := by
  intro schema d
  let one : ColumnCondition := ⟨"a", .or, .equal, .scalar (.long 1), .long, .whole 1⟩
  have hstops : d.replaceWhere "b" (.long 5) (.column one) = .error (.outsideRow 1 1) := rfl
  exact ⟨one, rfl, rfl, hstops, fun hreports => hreports.ne_outsideRow 1 1 hstops⟩

end Dataset

end Tabular
