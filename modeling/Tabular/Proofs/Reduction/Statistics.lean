import Tabular.Proofs.Reduction.Column
import Tabular.Proofs.Run.Analyze
import Tabular.Proofs.Statistics.Report

namespace Tabular

namespace Analysis

theorem Summarize.getElem? {types : List ColumnType} {rows : Multiset Row} {counters : List Counter}
    (h : Summarize types rows counters) {i : Nat} {type : ColumnType} (hi : types[i]? = some type) :
    ∃ c, counters[i]? = some c ∧ c.Summarizes type (rows.filterMap fun row => row[i]?) := by
  induction h generalizing i with
  | nil => cases hi
  | @cons first types rows c counters hfirst _ ih =>
    cases i with
    | zero =>
      cases hi
      refine ⟨c, rfl, ?_⟩
      simp only [← List.head?_eq_getElem?]
      exact hfirst
    | succ i =>
      obtain ⟨other, hother, hsum⟩ := ih hi
      refine ⟨other, hother, ?_⟩
      rw [Multiset.filterMap_map] at hsum
      simpa only [Function.comp_def, List.getElem?_tail] using hsum

theorem eq_of_report {a : Analysis} {schema : Schema} {report : Report}
    (h : a.report schema = .ok report) : report = ⟨schema, a.counters.map Counter.report⟩ := by
  rw [Analysis.report] at h
  split at h
  · cases h
  · split at h
    · cases h
    · exact (Except.ok.inj h).symm

end Analysis

namespace Counter

variable {type : ColumnType} {s : Multiset Value} {c : Counter}

theorem Summarizes.exists_integer_report (h : c.Summarizes type s)
    (mem : type ∈ [.integer, .long, .byte]) (accepted : ∀ v ∈ s, type.accepts v = true) :
    ∃ i : IntegerCounter, c.report = .integer (i.report type) ∧
      i.Summarizes (s.map Value.whole?) ∧ (i.report type).Describes s := by
  have short : type.totalLength s < 2 ^ 64 := by
    cases type with
    | string | bytes => simp at mem
    | _ => exact Nat.two_pow_pos 64
  have hdescribes := h.describes accepted short
  obtain ⟨i, hstate, hi⟩ := h.exists_integer mem
  have hreport : c.report = .integer (i.report type) := by rw [report, hstate, h.typed]
  rw [hreport] at hdescribes
  cases hdescribes with | integer _ _ hdescribes =>
  exact ⟨i, hreport, hi, hdescribes⟩

theorem Summarizes.exists_categorical (h : c.Summarizes .categorical s)
    (accepted : ∀ v ∈ s, ColumnType.accepts .categorical v = true) :
    ∃ r, c.report = .categorical r ∧ r.Describes s := by
  have hreport := h.describes accepted (Nat.two_pow_pos 64)
  generalize c.report = report at hreport
  cases hreport with
  | integer mem | double mem => simp at mem
  | categorical h => exact ⟨_, rfl, h⟩

end Counter

/-- A dataset that is valid is analysed, and each column has the report of a counter of its values.
-/
theorem Dataset.exists_analyze {d : Dataset} (valid : d.Valid) (few : d.rowCount < 2 ^ 64) :
    ∃ report, d.analyze = .ok report ∧ ∀ f ∈ d.schema.fields, ∃ c : Counter,
      report.column? f.name = some c.report ∧
        c.Summarizes f.type ↑(d.schema.column f.name d.rows) := by
  have hfew : (↑d.rows + 0 : Multiset Row).card < 2 ^ 64 := by
    rwa [add_zero, Multiset.coe_card]
  have hcheck : d.rows.forM (Analysis.check d.schema.types) = .ok () :=
    forM_eq_ok.2 fun row hrow => Analysis.check_eq_ok.2 (valid row hrow)
  obtain ⟨a, ha, hsum⟩ :=
    ((Analysis.Summarizes.ofSchema d.schema).foldlM_addRow hfew).exists_of_ok hcheck
  rw [add_zero] at hsum
  obtain ⟨report, hreport⟩ := hsum.report_eq_ok
  refine ⟨report, ?_, fun f hf => ?_⟩
  · rw [analyze, ha]
    exact hreport
  · obtain ⟨i, hcolumn⟩ := Schema.exists_requireColumn hf
    obtain ⟨hindex, hfield⟩ := Schema.requireColumn_eq_ok.1 hcolumn
    have htype : d.schema.types[i]? = some f.type := by
      rw [d.schema.types_getElem?, hfield, Option.map_some]
    obtain ⟨c, hc, hcounter⟩ := Analysis.Summarize.getElem? hsum htype
    refine ⟨c, ?_, ?_⟩
    · rw [Analysis.eq_of_report hreport, Report.column?]
      simp only [hindex, Option.bind_some, List.getElem?_map, hc, Option.map_some]
    · rw [Multiset.filterMap_coe] at hcounter
      simpa only [Schema.column, Schema.cell?_of_indexOf? hindex] using hcounter

section Values

variable {type : ColumnType} {values : List Value}

theorem plan_of_integer (mem : type ∈ [.integer, .long, .byte]) :
    (Reduction.sum.outputType type = .ok .long ∧ Accumulator.start .sum type = .wholeSum none) ∧
    (Reduction.min.outputType type = .ok type ∧ Accumulator.start .min type = .extreme .lt none) ∧
    (Reduction.max.outputType type = .ok type ∧
      Accumulator.start .max type = .extreme .gt none) := by
  cases type with
  | integer | long | byte => exact ⟨⟨rfl, rfl⟩, ⟨rfl, rfl⟩, rfl, rfl⟩
  | _ => simp at mem

theorem length_eraseDups_map_le {α κ : Type} [BEq κ] [LawfulBEq κ] (f : α → κ) (xs : List α) :
    (xs.map f).eraseDups.length ≤ xs.length := by
  obtain ⟨chosen, hchosen, hkeys⟩ := exists_represents f xs
  rw [← hkeys, List.length_map]
  exact hchosen.sublist.length_le

theorem filterMap_present {α : Type} {read : Value → Option α} (hnull : ∀ t, read (.null t) = none)
    (values : List Value) : (values.filter fun v => !v.isNull).filterMap read =
      values.filterMap read := by
  rw [List.filterMap_filter]
  apply List.filterMap_congr
  intro v _
  cases v with
  | null t => exact (hnull t).symm
  | _ => rfl

theorem integer?_of_present (mem : type ∈ [.integer, .long, .byte])
    (accepted : ∀ v ∈ values, type.accepts v = true) :
    ∀ v ∈ values.filter fun v => !v.isNull, v.integer?.isSome = true := by
  intro v hv
  obtain ⟨hv, hnull⟩ := List.mem_filter.1 hv
  exact (ColumnType.stores_of_accepts (accepted v hv) (by simpa using hnull)).integer?_isSome mem

theorem Accumulator.foldlM_extreme_of_best (mem : type ∈ [.integer, .long, .byte])
    (accepted : ∀ v ∈ values, type.accepts v = true) {keep : Ordering} (hkeep : keep ≠ .eq)
    {best : Option Int64} {count : Nat} (h : Extremes.Best orderInt64 keep
      (known ((values : Multiset Value).map Value.whole?)) (best, count)) :
    ∃ last, values.foldlM add (extreme keep none) = .ok (extreme keep last) ∧
      (∀ v, last = some v → v.integer?.isSome = true) ∧ last.bind Value.whole? = best := by
  have hstart : Extremes.Best orderInt64 keep 0 ((none : Option Value).bind Value.whole?, 0) :=
    ⟨rfl, rfl⟩
  obtain ⟨last, count', hfold, hlast, hbest⟩ := foldlM_extreme hkeep
    (integer?_of_present mem accepted) (fun b hb => absurd hb.symm (Option.some_ne_none b)) hstart
  rw [filterMap_present fun _ => rfl, add_zero, ← Multiset.filterMap_coe, ← known_map] at hbest
  have hunique := hbest.unique orders_orderInt64 hkeep (fun _ _ => trivial) h
  have hskips : (extreme keep none).SkipsMissing := trivial
  exact ⟨last, (foldlM_add hskips values).trans hfold, hlast, congrArg Prod.fst hunique⟩

theorem CategoricalReport.Describes.length_counts {r : CategoricalReport}
    (h : r.Describes (values : Multiset Value))
    (accepted : ∀ v ∈ values, ColumnType.accepts .categorical v = true) :
    r.counts.length = ((values.filter fun v => !v.isNull).map Key.of?).eraseDups.length := by
  have hnodup : (r.counts.map fun p => some (Key.text p.1)).Nodup := by
    rw [List.nodup_iff_pairwise_ne, List.pairwise_map]
    refine h.ascending.imp fun hlt heq => ?_
    rw [Key.text.inj (Option.some.inj heq), Std.compare_self] at hlt
    cases hlt
  have hmem : ∀ key, key ∈ r.counts.map (fun p => some (Key.text p.1)) ↔
      key ∈ ((values.filter fun v => !v.isNull).map Key.of?).eraseDups := by
    intro key
    rw [List.mem_eraseDups, List.mem_map, List.mem_map]
    constructor
    · rintro ⟨⟨label, n⟩, hp, rfl⟩
      obtain ⟨hpos, hcount⟩ := (h.counts label n).1 hp
      rw [hcount, Multiset.count_pos, Multiset.mem_filterMap] at hpos
      obtain ⟨v, hv, hlabel⟩ := hpos
      cases v with
      | string text =>
        cases hlabel
        exact ⟨.string label, List.mem_filter.2 ⟨hv, rfl⟩, rfl⟩
      | _ => cases hlabel
    · rintro ⟨v, hv, rfl⟩
      obtain ⟨hv, hnull⟩ := List.mem_filter.1 hv
      have hstores := ColumnType.stores_of_accepts (accepted v hv) (by simpa using hnull)
      cases hstores with | categorical label =>
      have hlabel : label ∈ (values : Multiset Value).filterMap Value.text? :=
        (Multiset.mem_filterMap _ _).2 ⟨_, hv, rfl⟩
      exact ⟨(label, _), (h.counts label _).2 ⟨Multiset.count_pos.2 hlabel, rfl⟩, rfl⟩
  have hperm := (List.perm_ext_iff_of_nodup hnodup (nodup_eraseDups _)).2 hmem
  rw [← hperm.length_eq, List.length_map]

end Values

/-- A reduced extreme is a missing value exactly if there is no best integer, and otherwise a value
that converts to it. -/
def HoldsBest (result : Except Error Value) (type : ColumnType) (best : Option Int64) : Prop :=
  (result = .ok (.null type) ↔ best = none) ∧
    ∀ m, best = some m → ∃ v, result = .ok v ∧ v.toInt64 = .ok m

/-- A reduced sum: missing exactly if there is no value, exact if every sum of first values has 64
bits, and else an overflow. -/
structure HoldsSum (result : Except Error Value) (present : List Value) (sum : Int) : Prop where
  missing : result = .ok (.null .long) ↔ present = []
  exact : present ≠ [] → ((∃ n, result = .ok (.long n) ∧ n.toInt = sum) ↔
    ∀ k, InInt64 (prefixSum present k))
  overflow : (∃ amount, result = .error (.numericOverflow amount .long)) ↔
    ∃ k, ¬InInt64 (prefixSum present k)

/-- The reductions of an integer column against its report. -/
structure IntegerReport.Agrees (d : Dataset) (f : Field) (r : IntegerReport) : Prop where
  count : ∃ n, d.reduce f.name .count = .ok (.long n) ∧ n.toInt = r.total
  min : HoldsBest (d.reduce f.name .min) f.type r.min
  max : HoldsBest (d.reduce f.name .max) f.type r.max
  sum : HoldsSum (d.reduce f.name .sum) (d.schema.present f.name d.rows) r.sum

/-- The counts of a categorical column against its report. -/
structure CategoricalReport.Agrees (d : Dataset) (f : Field) (r : CategoricalReport) : Prop where
  count : ∃ n, d.reduce f.name .count = .ok (.long n) ∧ n.toInt = r.total
  countUnique : ∃ n, d.reduce f.name .countUnique = .ok (.long n) ∧ n.toInt = r.counts.length

namespace Dataset

variable {d : Dataset} {f : Field}

theorem reduce_count (valid : d.Valid) (few : d.rowCount < 2 ^ 63) (hf : f ∈ d.schema.fields) :
    ∃ n, d.reduce f.name .count = .ok (.long n) ∧
      n.toInt = (d.schema.column f.name d.rows).length := by
  have hlength : (d.schema.column f.name d.rows).length ≤ d.rows.length :=
    List.length_filterMap_le _ _
  refine ⟨Int64.ofNat _, ?_, Int64.toInt_ofNat_of_lt (Nat.lt_of_le_of_lt hlength few)⟩
  rw [reduce_eq_foldlM valid hf rfl, Accumulator.start, Accumulator.foldlM_count, Nat.zero_add]
  rfl

theorem reduce_extreme (valid : d.Valid) (hf : f ∈ d.schema.fields)
    (mem : f.type ∈ [.integer, .long, .byte]) {r : Reduction} {keep : Ordering}
    (hplan : r.outputType f.type = .ok f.type ∧ Accumulator.start r f.type = .extreme keep none)
    (hkeep : keep ≠ .eq) {best : Option Int64}
    {count : Nat} (h : Extremes.Best orderInt64 keep
      (known ((d.schema.column f.name d.rows : Multiset Value).map Value.whole?)) (best, count)) :
    HoldsBest (d.reduce f.name r) f.type best := by
  obtain ⟨last, hfold, hlast, rfl⟩ :=
    Accumulator.foldlM_extreme_of_best mem (column_accepts valid hf) hkeep h
  have hreduce : d.reduce f.name r = .ok (last.getD (.null f.type)) := by
    rw [reduce_eq_foldlM valid hf hplan.1, hplan.2, hfold]
    rfl
  rw [hreduce]
  cases last with
  | none => exact ⟨iff_of_true rfl rfl, fun m hm => absurd hm.symm (Option.some_ne_none m)⟩
  | some v =>
    obtain ⟨_, hinteger⟩ := Option.isSome_iff_exists.1 (hlast v rfl)
    obtain ⟨m, htoInt64, hwhole, -⟩ := Value.toInt64_of_integer? hinteger
    rw [Option.bind_some, hwhole, Option.getD_some]
    refine ⟨iff_of_false ?_ (Option.some_ne_none m), ?_⟩
    · intro heq
      cases Except.ok.inj heq
      cases hinteger
    · rintro _ ⟨⟩
      exact ⟨v, rfl, htoInt64⟩

theorem reduce_sum (valid : d.Valid) (hf : f ∈ d.schema.fields)
    (mem : f.type ∈ [.integer, .long, .byte]) :
    HoldsSum (d.reduce f.name .sum) (d.schema.present f.name d.rows)
      ((d.schema.present f.name d.rows).filterMap Value.integer?).sum := by
  have hplan := (plan_of_integer mem).1
  have hskips : (Accumulator.start .sum f.type).SkipsMissing := by
    rw [hplan.2]
    trivial
  have hreduce := reduce_eq_foldlM_addPresent valid hf hplan.1 hskips
  rw [hplan.2] at hreduce
  have hread : ∀ v ∈ d.schema.present f.name d.rows, v.integer?.isSome = true :=
    integer?_of_present mem (column_accepts valid hf)
  rw [hreduce]
  generalize d.schema.present f.name d.rows = present at hread ⊢
  have hstays : StaysInInt64 0 present ↔ ∀ k, InInt64 (prefixSum present k) := by
    simp only [StaysInInt64, Int.zero_add]
  by_cases hne : present = []
  · subst hne
    have hall := hstays.1 (staysInInt64_nil.2 (by decide))
    refine ⟨iff_of_true rfl rfl, fun hne => absurd rfl hne, iff_of_false ?_ ?_⟩
    · rintro ⟨_, ⟨⟩⟩
    · rintro ⟨k, hk⟩
      exact hk (hall k)
  · rcases Accumulator.foldlM_wholeSum_none hread hne with
      ⟨hall, n, hfold, hn⟩ | ⟨hleaves, amount, herror⟩
    · rw [hfold]
      have hall := hstays.1 hall
      refine ⟨iff_of_false ?_ hne, fun _ => iff_of_true ⟨n, rfl, hn⟩ hall, iff_of_false ?_ ?_⟩
      · rintro ⟨⟩
      · rintro ⟨_, ⟨⟩⟩
      · rintro ⟨k, hk⟩
        exact hk (hall k)
    · rw [herror]
      have hleaves := mt hstays.2 hleaves
      refine ⟨iff_of_false ?_ hne, fun _ => iff_of_false ?_ hleaves,
        iff_of_true ⟨amount, rfl⟩ (not_forall.1 hleaves)⟩
      · rintro ⟨⟩
      · rintro ⟨_, ⟨⟩, _⟩

theorem agrees_integer (valid : d.Valid) (few : d.rowCount < 2 ^ 63) (hf : f ∈ d.schema.fields)
    (mem : f.type ∈ [.integer, .long, .byte]) {c : IntegerCounter}
    (h : c.Summarizes ((d.schema.column f.name d.rows : Multiset Value).map Value.whole?))
    (hreport : (c.report f.type).Describes ↑(d.schema.column f.name d.rows)) :
    (c.report f.type).Agrees d f := by
  obtain ⟨-, hmin, hmax⟩ := plan_of_integer mem
  have htotal : (c.report f.type).total = (d.schema.column f.name d.rows).length := hreport.total
  have hsum := hreport.sum
  rw [Multiset.filterMap_coe, Multiset.sum_coe, ← filterMap_present fun _ => rfl] at hsum
  constructor
  case count =>
    rw [htotal]
    exact reduce_count valid few hf
  case min => exact reduce_extreme valid hf mem hmin (by decide) h.extremes.min
  case max => exact reduce_extreme valid hf mem hmax (by decide) h.extremes.max
  case sum =>
    rw [hsum]
    exact reduce_sum valid hf mem

theorem agrees_categorical (valid : d.Valid) (few : d.rowCount < 2 ^ 63)
    (hf : f ∈ d.schema.fields) (htype : f.type = .categorical) {r : CategoricalReport}
    (h : r.Describes ↑(d.schema.column f.name d.rows)) : r.Agrees d f := by
  have houtput : Reduction.countUnique.outputType f.type = .ok .long := rfl
  obtain ⟨_, hfits⟩ := PlannedReduction.exists_fitsSchema hf houtput
  obtain ⟨seen, hseen, hperm⟩ := hfits.accumulate_countUnique rfl valid
  have hreduce := hfits.reduce_eq d.rows
  rw [hseen] at hreduce
  have hkeys : seen.length =
      ((d.schema.present f.name d.rows).map Key.of?).eraseDups.length := by
    rw [← List.length_map some]
    exact hperm.length_eq
  have hlabels : r.counts.length = seen.length := by
    rw [hkeys]
    exact h.length_counts (htype ▸ column_accepts valid hf)
  have hlength : seen.length ≤ d.rowCount := by
    rw [hkeys]
    calc ((d.schema.present f.name d.rows).map Key.of?).eraseDups.length
      _ ≤ (d.schema.present f.name d.rows).length := length_eraseDups_map_le _ _
      _ ≤ (d.schema.column f.name d.rows).length := List.length_filter_le _ _
      _ ≤ d.rowCount := List.length_filterMap_le _ _
  constructor
  case count =>
    rw [h.total, Multiset.coe_card]
    exact reduce_count valid few hf
  case countUnique =>
    rw [hlabels]
    exact ⟨_, hreduce, Int64.toInt_ofNat_of_lt (Nat.lt_of_le_of_lt hlength few)⟩

/-- The reductions of integer and categorical columns agree with the report of the dataset. -/
theorem reduce_agrees_with_analyze (d : Dataset) (valid : d.validate = .ok ())
    (few : d.rowCount < 2 ^ 63) :
    ∃ report, d.analyze = .ok report ∧
      (∀ f ∈ d.schema.fields, f.type ∈ [.integer, .long, .byte] →
        ∃ r, report.column? f.name = some (.integer r) ∧ r.Agrees d f) ∧
      ∀ f ∈ d.schema.fields, f.type = .categorical →
        ∃ r, report.column? f.name = some (.categorical r) ∧ r.Agrees d f := by
  rw [validate_eq_ok] at valid
  obtain ⟨report, hreport, hcolumns⟩ := exists_analyze valid (by omega)
  refine ⟨report, hreport, fun f hf mem => ?_, fun f hf htype => ?_⟩
  · obtain ⟨c, hc, hsum⟩ := hcolumns f hf
    obtain ⟨i, hi, hstate, hdescribes⟩ := hsum.exists_integer_report mem (column_accepts valid hf)
    exact ⟨_, hc.trans (congrArg some hi), agrees_integer valid few hf mem hstate hdescribes⟩
  · obtain ⟨c, hc, hsum⟩ := hcolumns f hf
    obtain ⟨r, hr, hdescribes⟩ :=
      Counter.Summarizes.exists_categorical (htype ▸ hsum) (htype ▸ column_accepts valid hf)
    exact ⟨r, hc.trans (congrArg some hr), agrees_categorical valid few hf htype hdescribes⟩

theorem reduce_agrees_with_analyze_of_three :
    let d : Dataset := ⟨⟨[⟨"n", .long⟩, ⟨"b", .byte⟩, ⟨"c", .categorical⟩], by decide, by decide⟩,
      [[.long 9223372036854775807, .byte 5, .string "x"], [.long 1, .null .byte, .string "y"],
        [.long (-1), .byte (-7), .string "x"]]⟩
    d.validate = .ok () ∧ d.rowCount < 2 ^ 63 ∧ ∃ report n b c, d.analyze = .ok report ∧
      report.column? "n" = some (.integer n) ∧ n.Agrees d ⟨"n", .long⟩ ∧
      report.column? "b" = some (.integer b) ∧ b.Agrees d ⟨"b", .byte⟩ ∧
      report.column? "c" = some (.categorical c) ∧ c.Agrees d ⟨"c", .categorical⟩ ∧
      (∃ amount, d.reduce "n" .sum = .error (.numericOverflow amount .long)) ∧
      ∃ m : Int64, d.reduce "b" .sum = .ok (.long m) ∧ m.toInt = b.sum := by
  intro d
  have valid : d.validate = .ok () := rfl
  have few : d.rowCount < 2 ^ 63 := by decide
  obtain ⟨report, hreport, integers, labels⟩ := reduce_agrees_with_analyze d valid few
  obtain ⟨n, hn, hagrees⟩ := integers ⟨"n", .long⟩ (by decide) (by decide)
  obtain ⟨b, hb, hagrees'⟩ := integers ⟨"b", .byte⟩ (by decide) (by decide)
  obtain ⟨c, hc, hagrees''⟩ := labels ⟨"c", .categorical⟩ (by decide) rfl
  have hpresent : d.schema.present "n" d.rows =
      [.long 9223372036854775807, .long 1, .long (-1)] := rfl
  have hpresent' : d.schema.present "b" d.rows = [.byte 5, .byte (-7)] := rfl
  refine ⟨valid, few, report, n, b, c, hreport, hn, hagrees, hb, hagrees', hc, hagrees'', ?_, ?_⟩
  · apply hagrees.sum.overflow.2
    rw [hpresent]
    exact ⟨2, by decide⟩
  · apply (hagrees'.sum.exact (by rw [hpresent']; exact List.cons_ne_nil _ _)).2
    rw [hpresent']
    rintro (_ | _ | _ | k)
    · decide
    · decide
    · decide
    · change InInt64 (-2)
      decide

end Dataset

end Tabular
