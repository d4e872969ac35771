import Tabular.Proofs.Statistics.Analysis
import Tabular.Proofs.Statistics.Kind

namespace Tabular.Analysis

variable {types others : List ColumnType} {a b c : Analysis} {counters more next : List Counter}
  {row : Row} {schema : Schema} {n m : Nat}

/-- Each counter has taken its own value of a row. -/
inductive Takes : List Counter → Row → List Counter → Prop where
  | nil : Takes [] [] []
  | cons {c d : Counter} {v : Value} {counters next : List Counter} {row : Row}
      (first : c.add v = .ok d) (rest : Takes counters row next) :
      Takes (c :: counters) (v :: row) (d :: next)

/-- Each counter has been merged with its counterpart. -/
inductive MergesEach : List Counter → List Counter → List Counter → Prop where
  | nil : MergesEach [] [] []
  | cons {c d m : Counter} {counters more next : List Counter} (first : c.merge d = .ok m)
      (rest : MergesEach counters more next) :
      MergesEach (c :: counters) (d :: more) (m :: next)

/-- Counters of columns with some types, behind each of them statistics that fit its type, which all
have seen the same number of values. -/
structure Even (types : List ColumnType) (n : Nat) (counters : List Counter) : Prop where
  types_eq : counters.map Counter.type = types
  typed : ∀ c ∈ counters, c.IsTyped
  total : ∀ c ∈ counters, c.report.total = n

theorem even_start (types : List ColumnType) : Even types 0 (types.map Counter.ofType) where
  types_eq := by
    rw [List.map_map]
    exact List.map_id types
  typed := List.forall_mem_map.2 fun type _ => Counter.isTyped_ofType type
  total := List.forall_mem_map.2 fun type _ =>
    (Counter.report_total _).trans (CounterState.total_ofType type)

theorem even_nil : Even [] n [] :=
  ⟨rfl, fun _ hc => absurd hc List.not_mem_nil, fun _ hc => absurd hc List.not_mem_nil⟩

theorem even_cons {c : Counter} {type : ColumnType} : Even (type :: types) n (c :: counters) ↔
    (c.type = type ∧ c.IsTyped ∧ c.report.total = n) ∧ Even types n counters := by
  constructor
  · rintro ⟨htypes, htyped, htotal⟩
    obtain ⟨htype, htypes⟩ := List.cons.inj htypes
    obtain ⟨hc, htyped⟩ := List.forall_mem_cons.1 htyped
    obtain ⟨hn, htotal⟩ := List.forall_mem_cons.1 htotal
    exact ⟨⟨htype, hc, hn⟩, htypes, htyped, htotal⟩
  · rintro ⟨⟨htype, hc, hn⟩, htypes, htyped, htotal⟩
    refine ⟨?_, List.forall_mem_cons.2 ⟨hc, htyped⟩, List.forall_mem_cons.2 ⟨hn, htotal⟩⟩
    rw [List.map_cons, htype, htypes]

theorem Takes.even (h : Takes counters row next) (heven : Even types n counters) :
    Even types (n + 1) next := by
  induction h generalizing types with
  | nil =>
    cases heven.types_eq
    exact even_nil
  | @cons c d v counters next row first rest ih =>
    cases heven.types_eq
    obtain ⟨⟨-, hc, hn⟩, hrest⟩ := even_cons.1 heven
    refine even_cons.2 ⟨⟨Counter.type_of_add first, hc.add first, ?_⟩, ih hrest⟩
    rw [Counter.total_of_add first, hn]

theorem MergesEach.even (h : MergesEach counters more next) (heven : Even types n counters)
    (hmore : Even others m more) : Even types (n + m) next := by
  induction h generalizing types others with
  | nil =>
    cases heven.types_eq
    exact even_nil
  | @cons c d e counters more next first rest ih =>
    cases heven.types_eq
    cases hmore.types_eq
    obtain ⟨⟨-, hc, hn⟩, hrest⟩ := even_cons.1 heven
    obtain ⟨⟨-, -, hm⟩, hmore⟩ := even_cons.1 hmore
    refine even_cons.2 ⟨⟨Counter.type_of_merge first, hc.merge first, ?_⟩, ih hrest hmore⟩
    rw [Counter.total_of_merge first, hn, hm]

theorem addValues_eq_advanceEach (counters : List Counter) (row : Row) :
    addValues counters row =
      (advanceEach counters row).1.map fun _ => (advanceEach counters row).2 := by
  induction counters generalizing row with
  | nil => cases row <;> rfl
  | cons c counters ih =>
    cases row with
    | nil => rfl
    | cons v row =>
      rw [addValues, advanceEach, ih]
      rcases c.advance_cases v with ⟨next, hnext, h⟩ | ⟨e, he, h⟩
      · rw [hnext, h]
        cases (advanceEach counters row).1 <;> rfl
      · rw [he, h]
        rfl

theorem advance_eq (a : Analysis) (row : Row) : a.advance row =
    match check (a.counters.map Counter.type) row with
    | .ok () => ((advanceEach a.counters row).1, ⟨(advanceEach a.counters row).2⟩)
    | .error e => (.error e, a) := by
  rw [advance, check, find?_refused_types, List.length_map]
  split
  · rfl
  · cases (a.counters.zip row).find? fun p => !p.1.accepts p.2 <;> rfl

theorem addRow_eq_advance (a : Analysis) (row : Row) :
    a.addRow row = (a.advance row).1.map fun _ => (a.advance row).2 := by
  rw [addRow_eq, advance_eq, addValues_eq_advanceEach]
  cases check (a.counters.map Counter.type) row with
  | error e => rfl
  | ok u => cases (advanceEach a.counters row).1 <;> rfl

theorem Even.exists_advanceEach (h : Even types n counters) (hrow : row.Fits types) :
    ∃ next, advanceEach counters row = (.ok (), next) ∧ Takes counters row next := by
  induction hrow generalizing counters with
  | nil =>
    cases List.map_eq_nil_iff.1 h.types_eq
    exact ⟨[], rfl, .nil⟩
  | @cons type v types row hv hrow ih =>
    obtain ⟨c, counters, rfl, -⟩ := List.map_eq_cons_iff.1 h.types_eq
    obtain ⟨⟨rfl, hc, -⟩, hrest⟩ := even_cons.1 h
    obtain ⟨d, hd⟩ := hc.exists_add_iff.2 hv
    obtain ⟨next, hnext, htakes⟩ := ih hrest
    refine ⟨d :: next, ?_, .cons hd htakes⟩
    rw [advanceEach, Counter.advance, hd, hnext]

/-- A row that fits moves every counter, and any other moves none. -/
theorem Even.advance_cases (h : Even types n a.counters) (row : Row) :
    (row.Fits types ∧ ∃ next, a.advance row = (.ok (), ⟨next⟩) ∧ Takes a.counters row next) ∨
      (¬row.Fits types ∧ ∃ e, a.advance row = (.error e, a)) := by
  rw [advance_eq, h.types_eq]
  cases hcheck : check types row with
  | error e =>
    refine .inr ⟨fun hrow => ?_, e, rfl⟩
    cases hcheck.symm.trans (check_eq_ok.2 hrow)
  | ok u =>
    have hrow := check_eq_ok.1 hcheck
    obtain ⟨next, hnext, htakes⟩ := h.exists_advanceEach hrow
    rw [hnext]
    exact .inl ⟨hrow, next, rfl, htakes⟩

theorem mergeCounters_eq_ok (h : counters.length = more.length) :
    mergeCounters counters more = .ok next ↔ MergesEach counters more next := by
  constructor
  · intro hnext
    induction counters generalizing more next with
    | nil =>
      cases List.eq_nil_of_length_eq_zero h.symm
      cases hnext
      exact .nil
    | cons c counters ih =>
      obtain ⟨d, more, rfl⟩ := List.exists_cons_of_length_eq_add_one h.symm
      obtain ⟨m, hm, hnext⟩ := bind_eq_ok.1 hnext
      obtain ⟨rest, hrest, rfl⟩ := bind_pure_eq_ok.1 hnext
      exact .cons hm (ih (Nat.succ.inj h) hrest)
  · intro hmerges
    induction hmerges with
    | nil => rfl
    | cons first rest ih =>
      rw [mergeCounters, first, ih (Nat.succ.inj h)]
      rfl

theorem Even.mergeCounters_cases (h : Even types n counters) (h' : Even others m more)
    (hlength : types.length = others.length) :
    (types = others ∧ ∃ next, mergeCounters counters more = .ok next) ∨
      ∃ s t, (s, t) ∈ types.zip others ∧ s ≠ t ∧
        mergeCounters counters more = .error (.typeMismatch (.counter s) (.counter t)) := by
  induction types generalizing others counters more with
  | nil =>
    cases List.eq_nil_of_length_eq_zero hlength.symm
    cases List.map_eq_nil_iff.1 h.types_eq
    exact .inl ⟨rfl, [], rfl⟩
  | cons s types ih =>
    obtain ⟨t, others, rfl⟩ := List.exists_cons_of_length_eq_add_one hlength.symm
    obtain ⟨c, counters, rfl, -⟩ := List.map_eq_cons_iff.1 h.types_eq
    obtain ⟨d, more, rfl, -⟩ := List.map_eq_cons_iff.1 h'.types_eq
    obtain ⟨⟨rfl, hc, -⟩, hrest⟩ := even_cons.1 h
    obtain ⟨⟨rfl, hd, -⟩, hmore⟩ := even_cons.1 h'
    rw [mergeCounters]
    by_cases htype : c.type = d.type
    · obtain ⟨first, hfirst⟩ := (hc.exists_merge_iff hd).2 htype
      rw [hfirst]
      rcases ih hrest hmore (Nat.succ.inj hlength) with
        ⟨rfl, next, hnext⟩ | ⟨s, t, hmem, hne, herror⟩
      · rw [hnext, htype]
        exact .inl ⟨rfl, first :: next, rfl⟩
      · rw [herror]
        exact .inr ⟨s, t, List.mem_cons_of_mem _ hmem, hne, rfl⟩
    · rw [Counter.merge_of_type_ne htype]
      exact .inr ⟨c.type, d.type, List.mem_cons_self, htype, rfl⟩

/-- Analyses of columns with equal types are merged; else the numbers of columns are reported, or
two types that differ. -/
theorem Even.merge_cases (h : Even types n a.counters) (h' : Even others m b.counters) :
    (types = others ∧ ∃ c, a.merge b = .ok c) ∨
      (types.length ≠ others.length ∧
        a.merge b = .error (.schema (.analysisMerge types.length others.length))) ∨
      (types.length = others.length ∧ ∃ s t, (s, t) ∈ types.zip others ∧ s ≠ t ∧
        a.merge b = .error (.typeMismatch (.counter s) (.counter t))) := by
  rw [merge, ← List.length_map Counter.type, h.types_eq, ← List.length_map Counter.type,
    h'.types_eq]
  by_cases hlength : types.length = others.length
  · rw [if_neg (fun hne => hne hlength)]
    rcases h.mergeCounters_cases h' hlength with ⟨htypes, next, hnext⟩ | ⟨s, t, hmem, hne, herror⟩
    · rw [hnext]
      exact .inl ⟨htypes, ⟨next⟩, rfl⟩
    · rw [herror]
      exact .inr (.inr ⟨hlength, s, t, hmem, hne, rfl⟩)
  · rw [if_pos hlength]
    exact .inr (.inl ⟨hlength, rfl⟩)

theorem Even.exists_merge_iff (h : Even types n a.counters) (h' : Even others m b.counters) :
    ((∃ c, a.merge b = .ok c) ↔ types = others) ∧
      ((∃ fault, a.merge b = .error (.schema fault)) ↔ types.length ≠ others.length) ∧
      ((∃ expected found, a.merge b = .error (.typeMismatch expected found)) ↔
        types.length = others.length ∧ types ≠ others) := by
  rcases h.merge_cases h' with ⟨rfl, c, hc⟩ | ⟨hlength, herror⟩ | ⟨hlength, s, t, hmem, hne, herror⟩
  · rw [hc]
    simp
  · have htypes : types ≠ others := fun heq => hlength (congrArg List.length heq)
    rw [herror]
    simp [hlength, htypes]
  · have htypes : types ≠ others := by
      rintro rfl
      exact hne ((List.forall₂_iff_zip.1 (List.forall₂_refl types)).2 hmem)
    rw [herror]
    simp [hlength, htypes]

theorem Even.merge (h : Even types n a.counters) (h' : Even others m b.counters)
    (hc : a.merge b = .ok c) : Even types (n + m) c.counters := by
  obtain ⟨hlength, hnext⟩ := merge_eq_ok.1 hc
  exact ((mergeCounters_eq_ok hlength).1 hnext).even h h'

/-- The analyses that rows and merges lead to, with the types of their columns. A row moves an
analysis in place, whether it is taken or refused. -/
inductive Reachable : List ColumnType → Analysis → Prop where
  | start (schema : Schema) : Reachable schema.types (.ofSchema schema)
  | advance {types : List ColumnType} {a : Analysis} (h : Reachable types a) (row : Row) :
      Reachable types (a.advance row).2
  | merge {types others : List ColumnType} {a b c : Analysis} (ha : Reachable types a)
      (hb : Reachable others b) (h : a.merge b = .ok c) : Reachable types c

theorem Reachable.exists_even (h : Reachable types a) : ∃ n, Even types n a.counters := by
  induction h with
  | start schema => exact ⟨0, even_start schema.types⟩
  | advance h row ih =>
    obtain ⟨n, heven⟩ := ih
    rcases heven.advance_cases row with ⟨-, next, hnext, htakes⟩ | ⟨-, e, herror⟩
    · rw [hnext]
      exact ⟨n + 1, htakes.even heven⟩
    · rw [herror]
      exact ⟨n, heven⟩
  | merge ha hb h iha ihb =>
    obtain ⟨n, heven⟩ := iha
    obtain ⟨m, hmore⟩ := ihb
    exact ⟨n + m, heven.merge hmore h⟩

/-- An analysis takes exactly the rows that the schema allows, each moving every counter; a refused
row leaves it as it was. -/
theorem advance_atomic (h : Reachable schema.types a) (row : Row) :
    ((a.advance row).1 = .ok () ↔ schema.validateRow row = .ok ()) ∧
      ((a.advance row).1 = .ok () → Takes a.counters row (a.advance row).2.counters) ∧
      (∀ e, (a.advance row).1 = .error e → (a.advance row).2 = a) ∧
      (∃ n, ∀ c ∈ a.counters, c.report.total = n) ∧
      a.addRow row = (a.advance row).1.map fun _ => (a.advance row).2 := by
  obtain ⟨n, heven⟩ := h.exists_even
  rw [Schema.validateRow_eq_ok, addRow_eq_advance]
  rcases heven.advance_cases row with ⟨hrow, next, hnext, htakes⟩ | ⟨hrow, e, herror⟩
  · rw [hnext]
    refine ⟨iff_of_true rfl hrow, fun _ => htakes, ?_, ⟨n, heven.total⟩, rfl⟩
    intro e he
    cases he
  · rw [herror]
    have hrefused : (.error e : Except Error Unit) ≠ .ok () := fun h => by cases h
    exact ⟨iff_of_false hrefused hrow, fun h => absurd h hrefused, fun _ _ => rfl,
      ⟨n, heven.total⟩, rfl⟩

theorem advance_atomic_of_three :
    let schema : Schema :=
      ⟨[⟨"a", .long⟩, ⟨"b", .categorical⟩, ⟨"c", .boolean⟩], by decide, by decide⟩
    let a := ((ofSchema schema).advance [.long 3, .null .categorical, .boolean true]).2
    let good : Row := [.long (-1), .string "x", .boolean false]
    let bad : Row := [.long (-1), .string "x", .integer 1]
    Reachable schema.types a ∧ (∀ c ∈ a.counters, c.report.total = 1) ∧
      schema.validateRow good = .ok () ∧ Takes a.counters good (a.advance good).2.counters ∧
      (a.advance bad).1 ≠ .ok () ∧ (a.advance bad).2 = a := by
  intro schema a good bad
  have reachable : Reachable schema.types a := .advance (.start schema) _
  obtain ⟨hgood, htakes, -⟩ := advance_atomic reachable good
  obtain ⟨hbad, -, hkept, -⟩ := advance_atomic reachable bad
  have hvalid : schema.validateRow good = .ok () := rfl
  have hrefused : schema.validateRow bad ≠ .ok () := by decide
  exact ⟨reachable, by decide, hvalid, htakes (hgood.2 hvalid), fun h => hrefused (hbad.1 h),
    hkept _ rfl⟩

end Tabular.Analysis
