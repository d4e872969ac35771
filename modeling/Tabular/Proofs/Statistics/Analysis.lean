import Tabular.Proofs.Schema
import Tabular.Proofs.Statistics.Counter
import Tabular.Statistics.Analysis

namespace Tabular.Analysis

/-- Counters hold the statistics of the columns of some rows. -/
inductive Summarize : List ColumnType → Multiset Row → List Counter → Prop where
  | nil {rows : Multiset Row} : Summarize [] rows []
  | cons {type : ColumnType} {types : List ColumnType} {rows : Multiset Row} {c : Counter}
      {counters : List Counter} (first : c.Summarizes type (rows.filterMap List.head?))
      (rest : Summarize types (rows.map List.tail) counters) :
      Summarize (type :: types) rows (c :: counters)

/-- An analysis of columns with some types holds the statistics of some rows. -/
def Summarizes (types : List ColumnType) (rows : Multiset Row) (a : Analysis) : Prop :=
  Summarize types rows a.counters

variable {types : List ColumnType} {rows more : Multiset Row} {counters others : List Counter}
  {row : Row}

theorem Summarize.start (types : List ColumnType) :
    Summarize types 0 (types.map Counter.ofType) := by
  induction types with
  | nil => exact .nil
  | cons type types ih => exact .cons (.ofType type) ih

theorem Summarize.types_eq (h : Summarize types rows counters) :
    counters.map Counter.type = types := by
  induction h with
  | nil => rfl
  | cons first rest ih => rw [List.map_cons, first.typed, ih]

theorem Summarize.unique (h : Summarize types rows counters) (h' : Summarize types rows others) :
    counters = others := by
  induction h generalizing others with
  | nil =>
    cases h'
    rfl
  | cons first rest ih =>
    cases h' with
    | cons first' rest' => rw [first.unique first', ih rest']

theorem Summarize.same (h : Summarize types rows counters) :
    List.isEqv counters counters Counter.same = true := by
  induction h with
  | nil => rfl
  | cons first rest ih => rw [List.isEqv, first.same, ih, Bool.and_self]

theorem Summarize.addValues (h : Summarize types rows counters) (hrow : row.Fits types)
    (few : (row ::ₘ rows).card < 2 ^ 64) :
    ∃ next, Analysis.addValues counters row = .ok next ∧ Summarize types (row ::ₘ rows) next := by
  induction h generalizing row with
  | nil =>
    cases hrow
    exact ⟨[], rfl, .nil⟩
  | @cons type types rows c counters first rest ih =>
    cases hrow with
    | @cons _ v _ row hv hrow =>
      have hhead : ((v :: row) ::ₘ rows).filterMap List.head? = v ::ₘ rows.filterMap List.head? :=
        Multiset.filterMap_cons_some _ _ _ rfl
      have hfew := Nat.lt_of_le_of_lt (card_filterMap_le List.head? ((v :: row) ::ₘ rows)) few
      obtain ⟨d, hadd, hd⟩ := first.add hv (hhead ▸ hfew)
      rw [← Multiset.card_map List.tail, Multiset.map_cons] at few
      obtain ⟨next, hnext, hsum⟩ := ih hrow few
      refine ⟨d :: next, ?_, .cons ?_ ?_⟩
      · rw [Analysis.addValues, hadd, hnext]
        rfl
      · rwa [hhead]
      · rwa [Multiset.map_cons]

theorem Summarize.mergeCounters (h : Summarize types rows counters)
    (h' : Summarize types more others) (few : (rows + more).card < 2 ^ 64) :
    ∃ merged, Analysis.mergeCounters counters others = .ok merged ∧
      Summarize types (rows + more) merged := by
  induction h generalizing more others with
  | nil =>
    cases h'
    exact ⟨[], rfl, .nil⟩
  | @cons type types rows c counters first rest ih =>
    cases h' with
    | cons first' rest' =>
      have hheads := Multiset.filterMap_add List.head? rows more
      have hfew := Nat.lt_of_le_of_lt (card_filterMap_le List.head? (rows + more)) few
      obtain ⟨m, hm, hms⟩ := first.merge first' (hheads ▸ hfew)
      rw [← Multiset.card_map List.tail, Multiset.map_add] at few
      obtain ⟨merged, hmerged, hsum⟩ := ih rest' few
      refine ⟨m :: merged, ?_, .cons ?_ ?_⟩
      · rw [Analysis.mergeCounters, hm, hmerged]
        rfl
      · rwa [hheads]
      · rwa [Multiset.map_add]

/-- The check that an analysis makes of a row before it counts it. -/
def check (types : List ColumnType) (row : Row) : Except Error Unit :=
  if row.length ≠ types.length then .error (.schema (.analysisRow row.length types.length))
  else
    match (types.zip row).find? fun p => !p.1.accepts p.2 with
    | some (type, v) => .error (.typeMismatch (.ofType type) (.value v))
    | none => .ok ()

theorem check_eq_ok : check types row = .ok () ↔ row.Fits types := by
  rw [Row.Fits.iff_find?, check]
  split
  · next hlength => simp [hlength]
  · next hlength =>
    split
    · next hfind => simp [hfind]
    · next hfind => simp only [Decidable.not_not.1 hlength, hfind, and_self]

/-- A refused value is found by the types of the counters alone. -/
theorem find?_refused_types (counters : List Counter) (row : Row) :
    ((counters.map Counter.type).zip row).find? (fun p => !p.1.accepts p.2) =
      ((counters.zip row).find? fun p => !p.1.accepts p.2).map fun p => (p.1.type, p.2) := by
  rw [List.zip_map_left, List.find?_map]
  rfl

/-- The check sees the types of the counters and nothing of what they hold. -/
theorem addRow_eq (a : Analysis) (row : Row) :
    a.addRow row = (check (a.counters.map Counter.type) row >>= fun _ =>
      (Analysis.addValues a.counters row).map Analysis.mk) := by
  rw [addRow, check, find?_refused_types, List.length_map]
  split
  · rfl
  · cases (a.counters.zip row).find? fun p => !p.1.accepts p.2 <;> rfl

variable {a b c : Analysis}

theorem merge_eq_ok : a.merge b = .ok c ↔ a.counters.length = b.counters.length ∧
    Analysis.mergeCounters a.counters b.counters = .ok c.counters := by
  obtain ⟨counters⟩ := c
  rw [merge]
  split
  · next hlength => simp only [hlength, reduceCtorEq, false_and]
  · next hlength =>
    simp only [Decidable.not_not.1 hlength, map_eq_ok, mk.injEq, exists_eq_right, true_and]

theorem exists_report_iff {schema : Schema} :
    (∃ report, a.report schema = .ok report) ↔ schema.types = a.counters.map Counter.type := by
  have htypes : schema.types = a.counters.map Counter.type ↔ schema.size = a.counters.length ∧
      ((schema.fields.zip a.counters).find? fun p => p.1.type != p.2.type) = none := by
    rw [Schema.types, ← List.forall₂_eq_eq_eq, List.forall₂_map_left_iff,
      List.forall₂_map_right_iff, List.forall₂_iff_zip, Schema.size]
    simp only [List.find?_eq_none, Prod.forall, bne_iff_ne, ne_eq, Decidable.not_not]
  rw [htypes, report]
  split
  · next hlength => simp [hlength]
  · next hlength =>
    split
    · next hfind => simp [hfind]
    · next hfind => simp [Decidable.not_not.1 hlength, hfind]

theorem Summarizes.ofSchema (schema : Schema) :
    Summarizes schema.types 0 (Analysis.ofSchema schema) :=
  Summarize.start schema.types

theorem Summarizes.report_eq_ok {schema : Schema} (h : a.Summarizes schema.types rows) :
    ∃ report, a.report schema = .ok report :=
  exists_report_iff.2 (Summarize.types_eq h).symm

theorem Summarizes.unique (ha : a.Summarizes types rows) (hb : b.Summarizes types rows) : a = b :=
  congrArg Analysis.mk (Summarize.unique ha hb)

theorem Summarizes.addRow (h : a.Summarizes types rows) (few : (row ::ₘ rows).card < 2 ^ 64) :
    Follows (Summarizes types (row ::ₘ rows)) (check types row) (a.addRow row) := by
  rw [addRow_eq, Summarize.types_eq h]
  cases hcheck : check types row with
  | error e => exact .error e
  | ok u =>
    obtain ⟨next, hnext, hsum⟩ := Summarize.addValues h (check_eq_ok.1 hcheck) few
    rw [hnext]
    exact .ok hsum

theorem Summarizes.merge (ha : a.Summarizes types rows) (hb : b.Summarizes types more)
    (few : (rows + more).card < 2 ^ 64) :
    ∃ c, a.merge b = .ok c ∧ c.Summarizes types (rows + more) := by
  obtain ⟨merged, hmerged, hsum⟩ := Summarize.mergeCounters ha hb few
  have hlength : a.counters.length = b.counters.length := by
    rw [← List.length_map Counter.type, Summarize.types_eq ha, ← Summarize.types_eq hb,
      List.length_map]
  exact ⟨⟨merged⟩, merge_eq_ok.2 ⟨hlength, hmerged⟩, hsum⟩

end Tabular.Analysis
