import Tabular.Proofs.Except
import Tabular.Proofs.Statistics.Double
import Tabular.Proofs.Statistics.Text
import Tabular.Statistics.Counter

namespace Tabular

namespace Value

/-- The integer that a counter reads from a value. -/
def whole? (v : Value) : Option Int64 := v.toInt64.toOption

def real? (v : Value) : Option Double := v.toDouble.toOption

def text? : Value → Option String
  | .string text => some text
  | _ => none

def bytes? : Value → Option (List UInt8)
  | .bytes data => some data
  | _ => none

def boolean? : Value → Option Bool
  | .boolean b => some b
  | _ => none

theorem isNull_or_isNumeric {type : ColumnType} (ht : type.isNumeric = true) {v : Value}
    (hv : type.accepts v = true) : v.isNull = true ∨ v.isNumeric = true := by
  cases v <;> first | exact .inl rfl | exact .inr rfl | (cases type <;> cases ht <;> cases hv)

end Value

/-- The kinds of statistics of a column. -/
inductive CounterKind where
  | integer
  | double
  | string
  | categorical
  | bytes
  | boolean
deriving DecidableEq

/-- The kind of statistics that fits a column type. -/
def ColumnType.counterKind : ColumnType → CounterKind
  | integer | long | byte => .integer
  | float | double => .double
  | string => .string
  | categorical => .categorical
  | bytes => .bytes
  | boolean => .boolean

namespace CounterState

def kind : CounterState → CounterKind
  | integer _ => .integer
  | double _ => .double
  | string _ => .string
  | categorical _ => .categorical
  | bytes _ => .bytes
  | boolean _ => .boolean

theorem kind_ofType (type : ColumnType) : (ofType type).kind = type.counterKind := by
  cases type <;> rfl

theorem isNumeric_of_counterKind {type : ColumnType}
    (h : type.counterKind = .integer ∨ type.counterKind = .double) : type.isNumeric = true := by
  cases type <;> simp [ColumnType.counterKind] at h <;> rfl

theorem add_integer (c : IntegerCounter) {v : Value} (h : v.isNull = true ∨ v.isNumeric = true) :
    (integer c).add v = .ok (.integer (c.add v.whole?)) := by
  cases v <;> first | rfl | simp [Value.isNull, Value.isNumeric, Value.numeric] at h

theorem add_double (c : DoubleCounter) {v : Value} (h : v.isNull = true ∨ v.isNumeric = true) :
    (double c).add v = .ok (.double (c.add v.real?)) := by
  cases v <;> first | rfl | simp [Value.isNull, Value.isNumeric, Value.numeric] at h

theorem add_string (c : StringCounter) (v : Value) :
    (string c).add v = .ok (.string (c.add v.text?)) := by
  cases v <;> rfl

theorem add_categorical (c : CategoricalCounter) (v : Value) :
    (categorical c).add v = .ok (.categorical (c.add v.text?)) := by
  cases v <;> rfl

theorem add_bytes (c : BytesCounter) (v : Value) :
    (bytes c).add v = .ok (.bytes (c.add v.bytes?)) := by
  cases v <;> rfl

theorem add_boolean (c : BooleanCounter) (v : Value) :
    (boolean c).add v = .ok (.boolean (c.add v.boolean?)) := by
  cases v <;> rfl

/-- A state of the kind of an initial one holds the statistics of some values. -/
inductive Summarizes (s : Multiset Value) : CounterState → CounterState → Prop where
  | integer {c : IntegerCounter} (h : c.Summarizes (s.map Value.whole?)) :
      Summarizes s (.integer .empty) (.integer c)
  | double {c : DoubleCounter} (h : c.Summarizes (s.map Value.real?)) :
      Summarizes s (.double .empty) (.double c)
  | string {c : StringCounter} (h : c.Summarizes (s.map Value.text?)) :
      Summarizes s (.string .empty) (.string c)
  | categorical {c : CategoricalCounter} (h : c.Summarizes (s.map Value.text?)) :
      Summarizes s (.categorical .empty) (.categorical c)
  | bytes {c : BytesCounter} (h : c.Summarizes (s.map Value.bytes?)) :
      Summarizes s (.bytes .empty) (.bytes c)
  | boolean {c : BooleanCounter} (h : c.Summarizes (s.map Value.boolean?)) :
      Summarizes s (.boolean .empty) (.boolean c)

variable {s t : Multiset Value} {start a b : CounterState} {type : ColumnType}

theorem Summarizes.ofType (type : ColumnType) : Summarizes 0 (.ofType type) (.ofType type) := by
  cases type with
  | integer | long | byte => exact .integer .empty
  | float | double => exact .double .empty
  | string => exact .string .empty
  | categorical => exact .categorical .empty
  | bytes => exact .bytes .empty
  | boolean => exact .boolean .empty

theorem Summarizes.unique (ha : Summarizes s start a) (hb : Summarizes s start b) : a = b := by
  cases ha with
  | integer ha => cases hb with | integer hb => rw [ha.unique hb]
  | double ha => cases hb with | double hb => rw [ha.unique hb]
  | string ha => cases hb with | string hb => rw [ha.unique hb]
  | categorical ha => cases hb with | categorical hb => rw [ha.unique hb]
  | bytes ha => cases hb with | bytes hb => rw [ha.unique hb]
  | boolean ha => cases hb with | boolean hb => rw [ha.unique hb]

theorem Summarizes.add (h : Summarizes s (.ofType type) a) {v : Value}
    (hv : type.accepts v = true) (few : (v ::ₘ s).card < 2 ^ 64) :
    ∃ b, a.add v = .ok b ∧ Summarizes (v ::ₘ s) (.ofType type) b := by
  have hkind := kind_ofType type
  generalize CounterState.ofType type = start at h hkind
  cases h with
  | integer h =>
    have hnumeric := Value.isNull_or_isNumeric (isNumeric_of_counterKind (.inl hkind.symm)) hv
    refine ⟨_, add_integer _ hnumeric, .integer ?_⟩
    rw [← Multiset.card_map Value.whole?, Multiset.map_cons] at few
    rw [Multiset.map_cons]
    exact h.add ((card_known_le _).trans_lt few)
  | double h =>
    have hnumeric := Value.isNull_or_isNumeric (isNumeric_of_counterKind (.inr hkind.symm)) hv
    refine ⟨_, add_double _ hnumeric, .double ?_⟩
    rw [Multiset.map_cons]
    exact h.add _
  | string h =>
    refine ⟨_, add_string _ v, .string ?_⟩
    rw [Multiset.map_cons]
    exact h.add _
  | categorical h =>
    refine ⟨_, add_categorical _ v, .categorical ?_⟩
    rw [Multiset.map_cons]
    exact h.add _
  | bytes h =>
    refine ⟨_, add_bytes _ v, .bytes ?_⟩
    rw [Multiset.map_cons]
    exact h.add _
  | boolean h =>
    refine ⟨_, add_boolean _ v, .boolean ?_⟩
    rw [Multiset.map_cons]
    exact h.add _

theorem Summarizes.merge (ha : Summarizes s start a) (hb : Summarizes t start b)
    (few : (s + t).card < 2 ^ 64) : ∃ c, a.merge b = .ok c ∧ Summarizes (s + t) start c := by
  cases ha with
  | integer ha =>
    cases hb with | integer hb =>
    refine ⟨_, rfl, .integer ?_⟩
    rw [← Multiset.card_map Value.whole?, Multiset.map_add] at few
    rw [Multiset.map_add]
    exact ha.merge hb ((card_known_le _).trans_lt few)
  | double ha =>
    cases hb with | double hb =>
    refine ⟨_, rfl, .double ?_⟩
    rw [Multiset.map_add]
    exact ha.merge hb
  | string ha =>
    cases hb with | string hb =>
    refine ⟨_, rfl, .string ?_⟩
    rw [Multiset.map_add]
    exact ha.merge hb
  | categorical ha =>
    cases hb with | categorical hb =>
    refine ⟨_, rfl, .categorical ?_⟩
    rw [Multiset.map_add]
    exact ha.merge hb
  | bytes ha =>
    cases hb with | bytes hb =>
    refine ⟨_, rfl, .bytes ?_⟩
    rw [Multiset.map_add]
    exact ha.merge hb
  | boolean ha =>
    cases hb with | boolean hb =>
    refine ⟨_, rfl, .boolean ?_⟩
    rw [Multiset.map_add]
    exact ha.merge hb

end CounterState

/-- Sameness of extremes, where numbers follow numeric equality and a NaN is not even itself. -/
def Extremes.same (e f : Extremes Double) : Bool :=
  best e.min f.min && best e.max f.max && decide (e.countMin = f.countMin) &&
    decide (e.countMax = f.countMax)
where
  best : Option Double → Option Double → Bool
    | some x, some y => x == y
    | none, none => true
    | _, _ => false

def CounterState.same : CounterState → CounterState → Bool
  | .double c, .double d =>
    c.extremes.same d.extremes && decide ({ c with extremes := d.extremes } = d)
  | a, b => decide (a = b)

def Counter.same (a b : Counter) : Bool := decide (a.type = b.type) && a.state.same b.state

theorem Extremes.same_best {better : Ordering} {s : Multiset Double} {best : Option Double × Nat}
    (h : Best compareReals better s best) (hs : ∀ x ∈ s, x.isNaN = false) :
    same.best best.1 best.1 = true := by
  obtain ⟨_ | x, n⟩ := best
  · rfl
  · exact Binary.beq_iff.2 ⟨hs x h.1, hs x h.1, rfl⟩

theorem DoubleCounter.Summarizes.same {c : DoubleCounter} {s : Multiset (Option Double)}
    (h : c.Summarizes s) : c.extremes.same c.extremes = true := by
  have hnan : ∀ x ∈ numbers s, x.isNaN = false := fun _ hx => (isCanonical_of_mem_numbers hx).1
  have hmin := Extremes.same_best h.extremes.min hnan
  have hmax := Extremes.same_best h.extremes.max hnan
  simp only [Extremes.same, hmin, hmax, decide_true, Bool.and_self]

theorem CounterState.Summarizes.same {start a : CounterState} {s : Multiset Value}
    (h : Summarizes s start a) : a.same a = true := by
  cases h with
  | double h => rw [CounterState.same, h.same, Bool.true_and, decide_eq_true_iff]
  | integer h | string h | categorical h | bytes h | boolean h => exact decide_eq_true rfl

namespace Counter

/-- A counter of a column holds the statistics of some values. -/
structure Summarizes (type : ColumnType) (s : Multiset Value) (c : Counter) : Prop where
  typed : c.type = type
  state : CounterState.Summarizes s (.ofType type) c.state

variable {type : ColumnType} {s t u : Multiset Value} {a b c : Counter} {v : Value}

theorem add_eq_ok : a.add v = .ok b ↔
    a.type.accepts v = true ∧ ∃ state, a.state.add v = .ok state ∧ ⟨a.type, state⟩ = b := by
  rw [add, accepts]
  split
  · next hv => simp only [hv, map_eq_ok, true_and]
  · next hv => simp only [hv, reduceCtorEq, false_and]

theorem merge_eq_ok : a.merge b = .ok c ↔
    a.type = b.type ∧ ∃ state, a.state.merge b.state = .ok state ∧ ⟨a.type, state⟩ = c := by
  rw [merge]
  split
  · next htype => simp only [htype, map_eq_ok, true_and]
  · next htype => simp only [htype, reduceCtorEq, false_and]

theorem accepts_of_add (h : a.add v = .ok b) : a.type.accepts v = true := (add_eq_ok.1 h).1

theorem type_of_add (h : a.add v = .ok b) : b.type = a.type := by
  obtain ⟨-, state, -, rfl⟩ := add_eq_ok.1 h
  rfl

theorem type_of_merge (h : a.merge b = .ok c) : c.type = a.type := by
  obtain ⟨-, state, -, rfl⟩ := merge_eq_ok.1 h
  rfl

theorem Summarizes.ofType (type : ColumnType) : Summarizes type 0 (.ofType type) :=
  ⟨rfl, .ofType type⟩

theorem Summarizes.unique (ha : Summarizes type s a) (hb : Summarizes type s b) : a = b := by
  have hstate := ha.state.unique hb.state
  obtain ⟨ta, a⟩ := a
  obtain ⟨tb, b⟩ := b
  rw [mk.injEq]
  exact ⟨ha.typed.trans hb.typed.symm, hstate⟩

theorem Summarizes.same (h : Summarizes type s a) : a.same a = true := by
  rw [Counter.same, h.state.same, Bool.and_true, decide_eq_true_iff]

theorem Summarizes.exists_integer (h : Summarizes type s c)
    (mem : type ∈ [.integer, .long, .byte]) :
    ∃ i, c.state = .integer i ∧ i.Summarizes (s.map Value.whole?) := by
  obtain ⟨-, hstate⟩ := h
  cases type with
  | integer | long | byte =>
    generalize c.state = state at hstate
    cases hstate with | integer h =>
    exact ⟨_, rfl, h⟩
  | _ => simp at mem

theorem Summarizes.add (h : Summarizes type s a) (hv : type.accepts v = true)
    (few : (v ::ₘ s).card < 2 ^ 64) : ∃ b, a.add v = .ok b ∧ Summarizes type (v ::ₘ s) b := by
  obtain ⟨state, hadd, hstate⟩ := h.state.add hv few
  exact ⟨⟨a.type, state⟩, add_eq_ok.2 ⟨h.typed ▸ hv, state, hadd, rfl⟩, ⟨h.typed, hstate⟩⟩

theorem Summarizes.merge (ha : Summarizes type s a) (hb : Summarizes type t b)
    (few : (s + t).card < 2 ^ 64) : ∃ c, a.merge b = .ok c ∧ Summarizes type (s + t) c := by
  obtain ⟨state, hmerge, hstate⟩ := ha.state.merge hb.state few
  have htype := ha.typed.trans hb.typed.symm
  exact ⟨⟨a.type, state⟩, merge_eq_ok.2 ⟨htype, state, hmerge, rfl⟩, ⟨ha.typed, hstate⟩⟩

/-- The counters that additions and merges lead to, with the values that went into them. -/
inductive Collected (type : ColumnType) : Multiset Value → Counter → Prop where
  | start : Collected type 0 (.ofType type)
  | add {s : Multiset Value} {a b : Counter} {v : Value} (h : Collected type s a)
      (hadd : a.add v = .ok b) : Collected type (v ::ₘ s) b
  | merge {s t : Multiset Value} {a b c : Counter} (ha : Collected type s a)
      (hb : Collected type t b) (hmerge : a.merge b = .ok c) : Collected type (s + t) c

theorem Collected.summarizes (h : Collected type s a) (few : s.card < 2 ^ 64) :
    Summarizes type s a := by
  induction h with
  | start => exact .ofType type
  | add h hadd ih =>
    have ha := ih (by rw [Multiset.card_cons] at few; omega)
    obtain ⟨b, hb, hs⟩ := ha.add (ha.typed ▸ accepts_of_add hadd) few
    cases hadd.symm.trans hb
    exact hs
  | merge ha hb hmerge iha ihb =>
    rw [Multiset.card_add] at few
    obtain ⟨c, hc, hs⟩ := (iha (by omega)).merge (ihb (by omega)) (by rwa [Multiset.card_add])
    cases hmerge.symm.trans hc
    exact hs

theorem Summarizes.merge_comm (ha : Summarizes type s a) (hb : Summarizes type t b)
    (few : (s + t).card < 2 ^ 64) : a.merge b = b.merge a := by
  obtain ⟨c, hc, hcs⟩ := ha.merge hb few
  obtain ⟨d, hd, hds⟩ := hb.merge ha (by rwa [add_comm])
  rw [hc, hd, hcs.unique (add_comm t s ▸ hds)]

theorem Summarizes.merge_assoc (ha : Summarizes type s a) (hb : Summarizes type t b)
    (hc : Summarizes type u c) (few : (s + t + u).card < 2 ^ 64) :
    ∃ total, (a.merge b >>= (·.merge c)) = .ok total ∧ (b.merge c >>= a.merge) = .ok total := by
  have hcard := few
  rw [Multiset.card_add, Multiset.card_add] at hcard
  obtain ⟨ab, hab, habs⟩ := ha.merge hb (by rw [Multiset.card_add]; omega)
  obtain ⟨bc, hbc, hbcs⟩ := hb.merge hc (by rw [Multiset.card_add]; omega)
  obtain ⟨x, hx, hxs⟩ := habs.merge hc few
  obtain ⟨y, hy, hys⟩ := ha.merge hbcs (by rwa [← add_assoc])
  refine ⟨x, bind_eq_ok.2 ⟨ab, hab, hx⟩, bind_eq_ok.2 ⟨bc, hbc, ?_⟩⟩
  rw [hy, hxs.unique (add_assoc s t u ▸ hys)]

theorem Summarizes.merge_ofType (ha : Summarizes type s a) (few : s.card < 2 ^ 64) :
    a.merge (Counter.ofType type) = .ok a := by
  obtain ⟨b, hb, hs⟩ := ha.merge (.ofType type) (by rwa [add_zero])
  rw [hb, ha.unique (add_zero s ▸ hs)]

/-- Merging counters of a type is commutative and associative, and the initial counter is its
identity. -/
structure MergeLaws (type : ColumnType) : Prop where
  comm {s t : Multiset Value} {a b : Counter} : Collected type s a → Collected type t b →
    (s + t).card < 2 ^ 64 → a.merge b = b.merge a
  assoc {s t u : Multiset Value} {a b c : Counter} : Collected type s a → Collected type t b →
    Collected type u c → (s + t + u).card < 2 ^ 64 →
      ∃ total, (a.merge b >>= (·.merge c)) = .ok total ∧ (b.merge c >>= a.merge) = .ok total
  identity {s : Multiset Value} {a : Counter} : Collected type s a → s.card < 2 ^ 64 →
    a.merge (ofType type) = .ok a ∧ (ofType type).merge a = .ok a

theorem mergeLaws (type : ColumnType) : MergeLaws type where
  comm {s t _ _} ha hb few := by
    have hcard := few
    rw [Multiset.card_add] at hcard
    exact (ha.summarizes (by omega)).merge_comm (hb.summarizes (by omega)) few
  assoc {s t u _ _ _} ha hb hc few := by
    have hcard := few
    rw [Multiset.card_add, Multiset.card_add] at hcard
    exact (ha.summarizes (by omega)).merge_assoc (hb.summarizes (by omega))
      (hc.summarizes (by omega)) few
  identity ha few := by
    have hs := ha.summarizes few
    have hcomm := (Summarizes.ofType type).merge_comm hs (by rwa [zero_add])
    exact ⟨hs.merge_ofType few, hcomm.trans (hs.merge_ofType few)⟩

end Counter

end Tabular
