import Tabular.Proofs.Statistics.Report

namespace Tabular

theorem IntegerCounter.total_add (c : IntegerCounter) (v : Option Int64) :
    (c.add v).total = c.total + 1 := by
  cases v <;> rfl

theorem DoubleCounter.total_add (c : DoubleCounter) (v : Option Double) :
    (c.add v).total = c.total + 1 := by
  cases v with
  | none => rfl
  | some x =>
    rw [add]
    split <;> rfl

theorem StringCounter.total_add (c : StringCounter) (v : Option String) :
    (c.add v).total = c.total + 1 := by
  cases v <;> rfl

theorem BytesCounter.total_add (c : BytesCounter) (v : Option (List UInt8)) :
    (c.add v).total = c.total + 1 := by
  cases v <;> rfl

theorem card_labelsOf_addCount (label : String) (n : Nat) (counts : List (String × Nat)) :
    (labelsOf (addCount label n counts)).card = (labelsOf counts).card + n := by
  fun_induction addCount label n counts with
  | case1 => simp only [labelsOf, Multiset.card_add, Multiset.card_replicate, Nat.add_comm]
  | case2 other m rest hlt =>
    simp only [labelsOf, Multiset.card_add, Multiset.card_replicate]
    omega
  | case3 other m rest heq =>
    simp only [labelsOf, Multiset.card_add, Multiset.card_replicate]
    omega
  | case4 other m rest hgt ih =>
    simp only [labelsOf, Multiset.card_add, Multiset.card_replicate, ih]
    omega

theorem card_labelsOf_merge (counts others : List (String × Nat)) :
    (labelsOf (others.foldl (fun counts p => addCount p.1 p.2 counts) counts)).card =
      (labelsOf counts).card + (labelsOf others).card := by
  induction others generalizing counts with
  | nil => rfl
  | cons p others ih =>
    rw [List.foldl_cons, ih, card_labelsOf_addCount, labelsOf, Multiset.card_add,
      Multiset.card_replicate, Nat.add_assoc]

namespace CounterState

variable {s t u : CounterState} {type : ColumnType} {v : Value}

/-- The number of values so far, missing ones included. -/
def total : CounterState → Nat
  | integer c => c.total
  | double c => c.total
  | string c => c.total
  | categorical c => c.missing + (labelsOf c.counts).card
  | bytes c => c.total
  | boolean c => c.true + c.false + c.missing

/-- What one more value does to statistics, whatever is read from it. -/
inductive Adds : CounterState → CounterState → Prop where
  | integer (c : IntegerCounter) (v : Option Int64) : Adds (.integer c) (.integer (c.add v))
  | double (c : DoubleCounter) (v : Option Double) : Adds (.double c) (.double (c.add v))
  | string (c : StringCounter) (v : Option String) : Adds (.string c) (.string (c.add v))
  | categorical (c : CategoricalCounter) (v : Option String) :
      Adds (.categorical c) (.categorical (c.add v))
  | bytes (c : BytesCounter) (v : Option (List UInt8)) : Adds (.bytes c) (.bytes (c.add v))
  | boolean (c : BooleanCounter) (v : Option Bool) : Adds (.boolean c) (.boolean (c.add v))

/-- What merging does to statistics. -/
inductive Merges : CounterState → CounterState → CounterState → Prop where
  | integer (a b : IntegerCounter) : Merges (.integer a) (.integer b) (.integer (a.merge b))
  | double (a b : DoubleCounter) : Merges (.double a) (.double b) (.double (a.merge b))
  | string (a b : StringCounter) : Merges (.string a) (.string b) (.string (a.merge b))
  | categorical (a b : CategoricalCounter) :
      Merges (.categorical a) (.categorical b) (.categorical (a.merge b))
  | bytes (a b : BytesCounter) : Merges (.bytes a) (.bytes b) (.bytes (a.merge b))
  | boolean (a b : BooleanCounter) : Merges (.boolean a) (.boolean b) (.boolean (a.merge b))

theorem adds_of_add (h : s.add v = .ok t) : Adds s t := by
  cases s with
  | integer c =>
    cases v with
    | null type =>
      cases h
      exact .integer c none
    | _ =>
      obtain ⟨n, -, rfl⟩ := bind_pure_eq_ok.1 h
      exact .integer c n
  | double c =>
    cases v with
    | null type =>
      cases h
      exact .double c none
    | _ =>
      obtain ⟨x, -, rfl⟩ := bind_pure_eq_ok.1 h
      exact .double c x
  | string c =>
    rw [add_string] at h
    cases h
    exact .string c _
  | categorical c =>
    rw [add_categorical] at h
    cases h
    exact .categorical c _
  | bytes c =>
    rw [add_bytes] at h
    cases h
    exact .bytes c _
  | boolean c =>
    rw [add_boolean] at h
    cases h
    exact .boolean c _

theorem merges_of_merge (h : s.merge t = .ok u) : Merges s t u := by
  rw [merge.eq_def] at h
  split at h
  · cases h
    exact .integer _ _
  · cases h
    exact .double _ _
  · cases h
    exact .string _ _
  · cases h
    exact .categorical _ _
  · cases h
    exact .bytes _ _
  · cases h
    exact .boolean _ _
  · cases h

theorem Adds.kind_eq (h : Adds s t) : t.kind = s.kind := by
  cases h <;> rfl

theorem Merges.kind_eq (h : Merges s t u) : u.kind = s.kind := by
  cases h <;> rfl

theorem Adds.total_eq (h : Adds s t) : t.total = s.total + 1 := by
  cases h with
  | integer c v => exact c.total_add v
  | double c v => exact c.total_add v
  | string c v => exact c.total_add v
  | bytes c v => exact c.total_add v
  | categorical c v =>
    cases v with
    | none =>
      simp only [total, CategoricalCounter.add]
      omega
    | some label => exact congrArg (c.missing + ·) (card_labelsOf_addCount label 1 c.counts)
  | boolean c v =>
    rcases v with _ | _ | _
    · rfl
    all_goals
      simp only [total, BooleanCounter.add]
      omega

theorem Merges.total_eq (h : Merges s t u) : u.total = s.total + t.total := by
  cases h with
  | integer a b | double a b | string a b | bytes a b => rfl
  | categorical a b =>
    simp only [total, CategoricalCounter.merge, card_labelsOf_merge]
    omega
  | boolean a b =>
    simp only [total, BooleanCounter.merge]
    omega

theorem total_ofType (type : ColumnType) : (ofType type).total = 0 := by
  cases type <;> rfl

theorem exists_add (hs : s.kind = type.counterKind) (hv : type.accepts v = true) :
    ∃ t, s.add v = .ok t := by
  cases s with
  | integer c =>
    have hnumeric := isNumeric_of_counterKind (.inl hs.symm)
    exact ⟨_, add_integer c (Value.isNull_or_isNumeric hnumeric hv)⟩
  | double c =>
    have hnumeric := isNumeric_of_counterKind (.inr hs.symm)
    exact ⟨_, add_double c (Value.isNull_or_isNumeric hnumeric hv)⟩
  | string c => exact ⟨_, add_string c v⟩
  | categorical c => exact ⟨_, add_categorical c v⟩
  | bytes c => exact ⟨_, add_bytes c v⟩
  | boolean c => exact ⟨_, add_boolean c v⟩

theorem exists_merge (h : s.kind = t.kind) : ∃ u, s.merge t = .ok u := by
  cases s <;> cases t <;> first | exact ⟨_, rfl⟩ | cases h

end CounterState

namespace Counter

variable {a b c : Counter} {v : Value}

/-- The statistics are of the kind that fits the column type. -/
def IsTyped (c : Counter) : Prop := c.state.kind = c.type.counterKind

theorem report_total (c : Counter) : c.report.total = c.state.total := by
  obtain ⟨type, state⟩ := c
  cases state with
  | categorical c => exact foldl_counts c.missing c.counts
  | _ => rfl

theorem isTyped_ofType (type : ColumnType) : (ofType type).IsTyped := CounterState.kind_ofType type

theorem merge_of_type_ne (h : a.type ≠ b.type) :
    a.merge b = .error (.typeMismatch (.counter a.type) (.counter b.type)) :=
  if_neg h

theorem IsTyped.add (ha : a.IsTyped) (h : a.add v = .ok b) : b.IsTyped := by
  obtain ⟨-, state, hstate, rfl⟩ := add_eq_ok.1 h
  exact (CounterState.adds_of_add hstate).kind_eq.trans ha

theorem IsTyped.merge (ha : a.IsTyped) (h : a.merge b = .ok c) : c.IsTyped := by
  obtain ⟨-, state, hstate, rfl⟩ := merge_eq_ok.1 h
  exact (CounterState.merges_of_merge hstate).kind_eq.trans ha

theorem total_of_add (h : a.add v = .ok b) : b.report.total = a.report.total + 1 := by
  obtain ⟨-, state, hstate, rfl⟩ := add_eq_ok.1 h
  rw [report_total, report_total]
  exact (CounterState.adds_of_add hstate).total_eq

theorem total_of_merge (h : a.merge b = .ok c) :
    c.report.total = a.report.total + b.report.total := by
  obtain ⟨-, state, hstate, rfl⟩ := merge_eq_ok.1 h
  rw [report_total, report_total, report_total]
  exact (CounterState.merges_of_merge hstate).total_eq

theorem IsTyped.exists_add_iff (ha : a.IsTyped) :
    (∃ b, a.add v = .ok b) ↔ a.type.accepts v = true := by
  simp only [add_eq_ok]
  constructor
  · rintro ⟨b, hv, -⟩
    exact hv
  · intro hv
    obtain ⟨state, hstate⟩ := CounterState.exists_add ha hv
    exact ⟨_, hv, state, hstate, rfl⟩

theorem IsTyped.exists_merge_iff (ha : a.IsTyped) (hb : b.IsTyped) :
    (∃ c, a.merge b = .ok c) ↔ a.type = b.type := by
  simp only [merge_eq_ok]
  constructor
  · rintro ⟨c, htype, -⟩
    exact htype
  · intro htype
    have hkind : a.state.kind = b.state.kind := by rw [ha, hb, htype]
    obtain ⟨state, hstate⟩ := CounterState.exists_merge hkind
    exact ⟨_, htype, state, hstate, rfl⟩

/-- The counters that values and merges lead to, from initial ones of any types. A value that is
refused leaves the counter as it was. -/
inductive Reachable : Counter → Prop where
  | start (type : ColumnType) : Reachable (.ofType type)
  | advance {c : Counter} (h : Reachable c) (v : Value) : Reachable (c.advance v).2
  | merge {a b c : Counter} (ha : Reachable a) (hb : Reachable b) (h : a.merge b = .ok c) :
      Reachable c

theorem advance_cases (c : Counter) (v : Value) :
    (∃ next, c.add v = .ok next ∧ c.advance v = (.ok (), next)) ∨
      ∃ e, c.add v = .error e ∧ c.advance v = (.error e, c) := by
  rw [advance]
  cases c.add v with
  | ok next => exact .inl ⟨next, rfl, rfl⟩
  | error e => exact .inr ⟨e, rfl, rfl⟩

theorem Reachable.isTyped (h : c.Reachable) : c.IsTyped := by
  induction h with
  | start type => exact isTyped_ofType type
  | @advance c _ v ih =>
    rcases c.advance_cases v with ⟨next, hnext, h⟩ | ⟨e, -, h⟩
    · rw [h]
      exact ih.add hnext
    · rw [h]
      exact ih
  | merge _ _ h iha _ => exact iha.merge h

end Counter

end Tabular
