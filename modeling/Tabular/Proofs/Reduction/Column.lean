import Tabular.Proofs.Reduction.Distinct
import Tabular.Proofs.Statistics.Description

namespace Tabular

/-- The values of some rows in a column, missing ones included. -/
def Schema.column (s : Schema) (name : String) (rows : List Row) : List Value :=
  rows.filterMap fun row => s.cell? row name

/-- The integers of 64 bits. -/
def InInt64 (n : Int) : Prop := -2 ^ 63 ≤ n ∧ n < 2 ^ 63

instance (n : Int) : Decidable (InInt64 n) :=
  inferInstanceAs (Decidable (-2 ^ 63 ≤ n ∧ n < 2 ^ 63))

theorem Int64.inInt64 (n : Int64) : InInt64 n.toInt :=
  ⟨n.le_toInt, n.toInt_lt⟩

/-- The sum of the integers among the first values. -/
def prefixSum (values : List Value) (k : Nat) : Int :=
  ((values.take k).filterMap Value.integer?).sum

theorem prefixSum_zero (values : List Value) : prefixSum values 0 = 0 := rfl

theorem prefixSum_nil (k : Nat) : prefixSum [] k = 0 := by
  rw [prefixSum, List.take_nil]
  rfl

theorem prefixSum_cons {v : Value} {n : Int} (hv : v.integer? = some n) (values : List Value)
    (k : Nat) : prefixSum (v :: values) (k + 1) = n + prefixSum values k := by
  rw [prefixSum, List.take_succ_cons, List.filterMap_cons_some hv, List.sum_cons, prefixSum]

/-- However many of the values are added to `a`, the sum has 64 bits. -/
def StaysInInt64 (a : Int) (values : List Value) : Prop :=
  ∀ k, InInt64 (a + prefixSum values k)

theorem StaysInInt64.start {a : Int} {values : List Value} (h : StaysInInt64 a values) :
    InInt64 a := by
  have hzero := h 0
  rwa [prefixSum_zero, Int.add_zero] at hzero

theorem staysInInt64_nil {a : Int} : StaysInInt64 a [] ↔ InInt64 a := by
  constructor
  · exact StaysInInt64.start
  · intro h k
    rwa [prefixSum_nil, Int.add_zero]

theorem staysInInt64_cons {v : Value} {n : Int} (hv : v.integer? = some n) {a : Int}
    {values : List Value} :
    StaysInInt64 a (v :: values) ↔ InInt64 a ∧ StaysInInt64 (a + n) values := by
  have hsucc : ∀ k, a + prefixSum (v :: values) (k + 1) = a + n + prefixSum values k := by
    intro k
    rw [prefixSum_cons hv, Int.add_assoc]
  constructor
  · intro h
    refine ⟨h.start, fun k => ?_⟩
    rw [← hsucc]
    exact h (k + 1)
  · rintro ⟨ha, h⟩ k
    cases k with
    | zero =>
      rwa [prefixSum_zero, Int.add_zero]
    | succ k =>
      rw [hsucc]
      exact h k

namespace Value

variable {v w : Value}

theorem toInt64_of_integer? {n : Int} (h : v.integer? = some n) :
    ∃ m : Int64, v.toInt64 = .ok m ∧ v.whole? = some m ∧ m.toInt = n := by
  cases v with
  | integer i | byte i =>
    cases h
    exact ⟨i.toInt64, rfl, rfl, by simp⟩
  | long i =>
    cases h
    exact ⟨i, rfl, rfl, rfl⟩
  | _ => cases h

theorem compare_of_integer? (hv : v.integer?.isSome = true) (hw : w.integer?.isSome = true)
    {m n : Int64} (hm : v.whole? = some m) (hn : w.whole? = some n) :
    v.compare w = .ok (orderInt64 m n) := by
  cases v with
  | integer i | byte i | long i =>
    cases w with
    | integer k | byte k | long k =>
      cases hm
      cases hn
      rfl
    | _ => cases hw
  | _ => cases hv

end Value

theorem ColumnType.Stores.integer?_isSome {type : ColumnType} {v : Value} (h : type.Stores v)
    (mem : type ∈ [.integer, .long, .byte]) : v.integer?.isSome = true := by
  cases h <;> first | rfl | simp at mem

namespace Accumulator

/-- Every accumulator but a count skips missing values. -/
def SkipsMissing : Accumulator → Prop
  | count _ => False
  | _ => True

variable {acc acc' : Accumulator} {v : Value}

theorem add_of_isNull (h : acc.SkipsMissing) (hnull : v.isNull = true) : acc.add v = .ok acc := by
  cases acc with
  | count n => exact absurd h id
  | _ => exact if_pos hnull

theorem add_of_not_isNull (hnull : v.isNull = false) : acc.add v = acc.addPresent v := by
  cases acc with
  | count n => rfl
  | _ => exact if_neg (by rw [hnull]; exact Bool.false_ne_true)

theorem SkipsMissing.addPresent (h : acc.SkipsMissing) (hadd : acc.addPresent v = .ok acc') :
    acc'.SkipsMissing := by
  cases acc with
  | count n => exact absurd h id
  | countUnique seen | last u =>
    cases hadd
    trivial
  | first u =>
    cases u <;> cases hadd <;> trivial
  | realSum sum | mean sum n =>
    obtain ⟨x, -, hadd⟩ := bind_eq_ok.1 hadd
    cases hadd
    trivial
  | wholeSum sum =>
    cases sum with
    | none =>
      obtain ⟨n, -, hadd⟩ := bind_eq_ok.1 hadd
      cases hadd
      trivial
    | some a =>
      obtain ⟨n, -, hadd⟩ := bind_eq_ok.1 hadd
      obtain ⟨m, -, hadd⟩ := bind_eq_ok.1 hadd
      cases hadd
      trivial
  | extreme keep best =>
    cases best with
    | none =>
      cases hadd
      trivial
    | some b =>
      obtain ⟨order, -, hadd⟩ := bind_eq_ok.1 hadd
      cases hadd
      trivial

theorem foldlM_add (h : acc.SkipsMissing) (values : List Value) :
    values.foldlM add acc = (values.filter fun v => !v.isNull).foldlM addPresent acc := by
  induction values generalizing acc with
  | nil => rfl
  | cons v values ih =>
    rw [List.foldlM_cons]
    cases hnull : v.isNull with
    | true =>
      rw [add_of_isNull h hnull, List.filter_cons_of_neg (by simp [hnull])]
      exact ih h
    | false =>
      rw [add_of_not_isNull hnull, List.filter_cons_of_pos (by simp [hnull]), List.foldlM_cons]
      cases hadd : acc.addPresent v with
      | error e => rfl
      | ok next => exact ih (h.addPresent hadd)

theorem foldlM_count (n : Nat) (values : List Value) :
    values.foldlM add (count n) = .ok (count (n + values.length)) := by
  induction values generalizing n with
  | nil => rfl
  | cons v values ih =>
    rw [List.foldlM_cons, List.length_cons, Nat.add_comm values.length, ← Nat.add_assoc, ← ih]
    rfl

section Sum

theorem addChecked_cases (a b : Int64) :
    (InInt64 (a.toInt + b.toInt) ∧ ∃ c, addChecked a b = .ok c ∧ c.toInt = a.toInt + b.toInt) ∨
    (¬InInt64 (a.toInt + b.toInt) ∧
      ∃ amount, addChecked a b = .error (.numericOverflow amount .long)) := by
  by_cases h : InInt64 (a.toInt + b.toInt)
  · exact .inl ⟨h, _, if_pos h, Int64.toInt_ofInt_of_le h.1 h.2⟩
  · exact .inr ⟨h, _, if_neg h⟩

variable {values : List Value}

/-- A sum of integers after `a` is exact if it stays in 64 bits on the way, and else an overflow. -/
theorem foldlM_wholeSum (hread : ∀ v ∈ values, v.integer?.isSome = true) (a : Int64) :
    (StaysInInt64 a.toInt values ∧
      ∃ b, values.foldlM addPresent (wholeSum (some a)) = .ok (wholeSum (some b)) ∧
        b.toInt = a.toInt + (values.filterMap Value.integer?).sum) ∨
    (¬StaysInInt64 a.toInt values ∧
      ∃ amount, values.foldlM addPresent (wholeSum (some a)) =
        .error (.numericOverflow amount .long)) := by
  induction values generalizing a with
  | nil => exact .inl ⟨staysInInt64_nil.2 (Int64.inInt64 a), a, rfl, (Int.add_zero _).symm⟩
  | cons v values ih =>
    obtain ⟨hv, hread⟩ := List.forall_mem_cons.1 hread
    obtain ⟨_, hn⟩ := Option.isSome_iff_exists.1 hv
    obtain ⟨n, hwhole, -, rfl⟩ := Value.toInt64_of_integer? hn
    have hstep : (wholeSum (some a)).addPresent v =
        (addChecked a n).map fun c => wholeSum (some c) := by
      rw [addPresent, hwhole]
      change (addChecked a n >>= fun c => pure (wholeSum (some c))) = _
      cases addChecked a n <;> rfl
    rw [List.foldlM_cons, hstep, staysInInt64_cons hn]
    rcases addChecked_cases a n with ⟨-, c, hc, hsum⟩ | ⟨hout, amount, herror⟩
    · rw [hc, ← hsum]
      rcases ih hread c with ⟨hstays, b, hfold, hb⟩ | ⟨hleaves, herror⟩
      · refine .inl ⟨⟨Int64.inInt64 a, hstays⟩, b, hfold, ?_⟩
        rw [hb, List.filterMap_cons_some hn, List.sum_cons, hsum, Int.add_assoc]
      · exact .inr ⟨fun h => hleaves h.2, herror⟩
    · rw [herror]
      exact .inr ⟨fun h => hout h.2.start, amount, rfl⟩

theorem foldlM_wholeSum_none (hread : ∀ v ∈ values, v.integer?.isSome = true) (hne : values ≠ []) :
    (StaysInInt64 0 values ∧
      ∃ b, values.foldlM addPresent (wholeSum none) = .ok (wholeSum (some b)) ∧
        b.toInt = (values.filterMap Value.integer?).sum) ∨
    (¬StaysInInt64 0 values ∧
      ∃ amount, values.foldlM addPresent (wholeSum none) =
        .error (.numericOverflow amount .long)) := by
  cases values with
  | nil => exact absurd rfl hne
  | cons v values =>
    obtain ⟨hv, hread⟩ := List.forall_mem_cons.1 hread
    obtain ⟨_, hn⟩ := Option.isSome_iff_exists.1 hv
    obtain ⟨n, hwhole, -, rfl⟩ := Value.toInt64_of_integer? hn
    have hstep : (wholeSum none).addPresent v = .ok (wholeSum (some n)) := by
      rw [addPresent, hwhole]
      rfl
    rw [List.foldlM_cons, hstep, staysInInt64_cons hn, Int.zero_add, List.filterMap_cons_some hn,
      List.sum_cons]
    rcases foldlM_wholeSum hread n with ⟨hstays, hfold⟩ | ⟨hleaves, herror⟩
    · exact .inl ⟨⟨by decide, hstays⟩, hfold⟩
    · exact .inr ⟨fun h => hleaves h.2, herror⟩

end Sum

section Extreme

variable {keep : Ordering} {best : Option Value}

theorem addPresent_extreme (hkeep : keep ≠ .eq)
    (hbest : ∀ b, best = some b → b.integer?.isSome = true) (hv : v.integer?.isSome = true)
    {n : Int64} (hn : v.whole? = some n) (k : Nat) :
    ∃ next count, (extreme keep best).addPresent v = .ok (extreme keep next) ∧
      (∀ b, next = some b → b.integer?.isSome = true) ∧
      Extremes.observeOne orderInt64 keep (best.bind Value.whole?) k n =
        (next.bind Value.whole?, count) := by
  cases best with
  | none =>
    refine ⟨some v, 1, rfl, ?_, congrArg (·, 1) hn.symm⟩
    rintro _ ⟨⟩
    exact hv
  | some b =>
    have hb := hbest b rfl
    obtain ⟨_, hinteger⟩ := Option.isSome_iff_exists.1 hb
    obtain ⟨m, -, hm, -⟩ := Value.toInt64_of_integer? hinteger
    have hstep : (extreme keep (some b)).addPresent v =
        .ok (extreme keep (some (if orderInt64 n m = keep then v else b))) := by
      rw [addPresent, Value.compare_of_integer? hv hb hn hm]
      rfl
    refine ⟨_, _, hstep, ?_, Prod.ext ?_ rfl⟩
    · rintro _ ⟨⟩
      split
      · exact hv
      · exact hb
    · rw [Option.bind_some, Option.bind_some, hm, Extremes.observeOne]
      by_cases horder : orderInt64 n m = keep
      · simp only [horder, if_true, if_neg hkeep]
        exact hn.symm
      · simp only [horder, if_false]
        split <;> exact hm.symm

theorem foldlM_extreme (hkeep : keep ≠ .eq) {values : List Value}
    (hread : ∀ v ∈ values, v.integer?.isSome = true) {seen : Multiset Int64} {k : Nat}
    (hbest : ∀ b, best = some b → b.integer?.isSome = true)
    (h : Extremes.Best orderInt64 keep seen (best.bind Value.whole?, k)) :
    ∃ last count, values.foldlM addPresent (extreme keep best) = .ok (extreme keep last) ∧
      (∀ b, last = some b → b.integer?.isSome = true) ∧
      Extremes.Best orderInt64 keep (↑(values.filterMap Value.whole?) + seen)
        (last.bind Value.whole?, count) := by
  induction values generalizing best seen k with
  | nil => exact ⟨best, k, rfl, hbest, by simpa using h⟩
  | cons v values ih =>
    obtain ⟨hv, hread⟩ := List.forall_mem_cons.1 hread
    obtain ⟨_, hinteger⟩ := Option.isSome_iff_exists.1 hv
    obtain ⟨n, -, hn, -⟩ := Value.toInt64_of_integer? hinteger
    obtain ⟨next, _, hstep, hnext, hkept⟩ := addPresent_extreme hkeep hbest hv hn k
    have hobserve : Extremes.Best orderInt64 keep (n ::ₘ seen)
        (Extremes.observeOne orderInt64 keep (best.bind Value.whole?) k n) :=
      h.observe orders_orderInt64 hkeep (fun _ _ => trivial) trivial
    rw [hkept] at hobserve
    obtain ⟨last, count, hfold, hlast, hresult⟩ := ih hread hnext hobserve
    refine ⟨last, count, ?_, hlast, ?_⟩
    · rw [List.foldlM_cons, hstep]
      exact hfold
    · rwa [List.filterMap_cons_some hn, ← Multiset.cons_coe, Multiset.cons_add,
        ← Multiset.add_cons]

end Extreme

end Accumulator

namespace PlannedReduction

variable {schema : Schema} {r : PlannedReduction} {rows : List Row}

theorem exists_fitsSchema {f : Field} (hf : f ∈ schema.fields) {reduction : Reduction}
    {output : ColumnType} (houtput : reduction.outputType f.type = .ok output) :
    ∃ i, FitsSchema schema ⟨i, reduction, f, output⟩ := by
  obtain ⟨i, hcolumn⟩ := Schema.exists_requireColumn hf
  exact ⟨i, (Schema.requireColumn_eq_ok.1 hcolumn).2, houtput⟩

theorem FitsSchema.accumulate_eq (h : r.FitsSchema schema)
    (hrows : ∀ row ∈ rows, row.Fits schema.types) :
    (∀ v ∈ schema.column r.input.name rows, r.input.type.accepts v = true) ∧
    r.accumulate rows = (schema.column r.input.name rows).foldlM Accumulator.add
      (Accumulator.start r.reduction r.input.type) := by
  rw [accumulate]
  generalize Accumulator.start r.reduction r.input.type = acc
  induction rows generalizing acc with
  | nil => exact ⟨fun v hv => absurd hv List.not_mem_nil, rfl⟩
  | cons row rows ih =>
    obtain ⟨hrow, hrows⟩ := List.forall_mem_cons.1 hrows
    obtain ⟨v, hv, haccepts, hadd⟩ := h.exists_cell hrow
    have hcolumn : schema.column r.input.name (row :: rows) =
        v :: schema.column r.input.name rows :=
      List.filterMap_cons_some ((h.cell?_eq row).trans hv)
    rw [hcolumn]
    refine ⟨List.forall_mem_cons.2 ⟨haccepts, (ih hrows acc).1⟩, ?_⟩
    rw [List.foldlM_cons, List.foldlM_cons, hadd]
    cases acc.add v with
    | error e => rfl
    | ok next => exact (ih hrows next).2

end PlannedReduction

namespace Dataset

variable {d : Dataset} {f : Field}

theorem column_accepts (valid : d.Valid) (hf : f ∈ d.schema.fields) :
    ∀ v ∈ d.schema.column f.name d.rows, f.type.accepts v = true := by
  have houtput : Reduction.first.outputType f.type = .ok f.type := rfl
  obtain ⟨_, hfits⟩ := PlannedReduction.exists_fitsSchema hf houtput
  exact (hfits.accumulate_eq valid).1

theorem reduce_eq_foldlM (valid : d.Valid) (hf : f ∈ d.schema.fields) {r : Reduction}
    {output : ColumnType} (houtput : r.outputType f.type = .ok output) :
    d.reduce f.name r = ((d.schema.column f.name d.rows).foldlM Accumulator.add
      (Accumulator.start r f.type)).map fun acc => acc.finish output := by
  obtain ⟨_, hfits⟩ := PlannedReduction.exists_fitsSchema hf houtput
  rw [← (hfits.accumulate_eq valid).2]
  exact hfits.reduce_eq d.rows

theorem reduce_eq_foldlM_addPresent (valid : d.Valid) (hf : f ∈ d.schema.fields) {r : Reduction}
    {output : ColumnType} (houtput : r.outputType f.type = .ok output)
    (hskips : (Accumulator.start r f.type).SkipsMissing) :
    d.reduce f.name r = ((d.schema.present f.name d.rows).foldlM Accumulator.addPresent
      (Accumulator.start r f.type)).map fun acc => acc.finish output := by
  rw [reduce_eq_foldlM valid hf houtput, Accumulator.foldlM_add hskips]
  rfl

theorem present_stores (valid : d.Valid) (hf : f ∈ d.schema.fields) :
    ∀ v ∈ d.schema.present f.name d.rows, f.type.Stores v := by
  intro v hv
  obtain ⟨hcolumn, hnull⟩ := List.mem_filter.1 hv
  refine ColumnType.stores_of_accepts (column_accepts valid hf v hcolumn) ?_
  rwa [Bool.not_eq_true'] at hnull

end Dataset

end Tabular
