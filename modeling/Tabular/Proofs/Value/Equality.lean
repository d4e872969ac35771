import Tabular.Proofs.Schema
import Tabular.Proofs.Value.Order

namespace Tabular

theorem compareBytes_eq_iff {as bs : List UInt8} : compareBytes as bs = .eq ↔ as = bs := by
  induction as generalizing bs with
  | nil => cases bs <;> simp [compareBytes]
  | cons a as ih =>
    cases bs with
    | nil => simp [compareBytes]
    | cons b bs =>
      rw [compareBytes, Ordering.then_eq_eq, ih, Std.compare_eq_iff_eq, UInt8.toNat_inj,
        List.cons.injEq]

namespace Numeric

def isNaN : Numeric → Bool
  | whole _ => false
  | real x => x.isNaN

theorem sameKey_iff_compare {m n : Numeric} (hm : m.isNaN = false) (hn : n.isNaN = false)
    (h : m.isWhole = n.isWhole) : m.sameKey n = true ↔ m.compare n = .eq := by
  cases m with
  | whole m =>
    cases n with
    | whole n => rw [sameKey, compare, Std.compare_eq_iff_eq, decide_eq_true_iff]
    | real y => cases h
  | real x =>
    cases n with
    | whole n => cases h
    | real y =>
      have hx : x.isNaN = false := hm
      have hy : y.isNaN = false := hn
      have hbeq : (x == y) = (x.compare? y == some .eq) := rfl
      rw [sameKey, compare, compareReals, hbeq, Binary.compare?, hx, hy, Bool.or_self,
        Bool.false_and, Bool.false_and, Bool.or_false, if_neg Bool.false_ne_true,
        Option.getD_some, beq_iff_eq, Option.some.injEq]

end Numeric

namespace Key

theorem of?_eq_none_iff {v : Value} : of? v = none ↔ v.isNull = true := by
  cases v <;> simp [of?, Value.isNull]

theorem exists_of? {v : Value} (h : v.isNull = false) : ∃ key, of? v = some key := by
  rw [← Option.isSome_iff_exists, Option.isSome_iff_ne_none, ne_eq, of?_eq_none_iff, h]
  exact Bool.false_ne_true

end Key

namespace Value

variable {a b : Value} {m n : Numeric}

/-- The comparison of two values finds them equal; there is none with a missing value. -/
def comparesEqual (a b : Value) : Bool :=
  match a.compare b with
  | .ok .eq => true
  | _ => false

theorem comparesEqual_iff : a.comparesEqual b = true ↔ a.compare b = .ok .eq := by
  rw [comparesEqual]
  split
  · next h => simp [h]
  · next h => simpa using h

theorem comparesEqual_of_isNull (h : a.isNull = true ∨ b.isNull = true) :
    a.comparesEqual b = false := by
  rcases h with h | h
  · cases a <;> cases h
    cases b <;> rfl
  · cases b <;> cases h
    cases a <;> rfl

/-- Two missing values, or two values that compare equal. -/
def alike (a b : Value) : Bool := a.isNull && b.isNull || a.comparesEqual b

/-- Two values that are not missing and compare equal. -/
def meets (a b : Value) : Bool := !a.isNull && !b.isNull && a.comparesEqual b

theorem numeric_isNaN (h : a.numeric = some m) : m.isNaN = a.isNaN := by
  have hsingle (x : Single) : (Numeric.real x.convert).isNaN = (float x).isNaN :=
    Binary.convert_isNaN x
  cases a <;> cases h <;> first | rfl | exact hsingle _

theorem numeric_of_number? (h : a.number? = some m) : a.numeric = some m := by
  cases a <;> first | exact h | cases h

theorem number?_isNaN (h : a.number? = some m) : m.isNaN = a.isNaN :=
  numeric_isNaN (numeric_of_number? h)

theorem key_eq_iff_of_number? (hm : a.number? = some m) (hn : b.number? = some n)
    (ha : a.isNaN = false) (hb : b.isNaN = false) (h : a.isWhole = b.isWhole) :
    Key.of? a = Key.of? b ↔ a.compare b = .ok .eq := by
  rw [← number?_isNaN hm] at ha
  rw [← number?_isNaN hn] at hb
  rw [← number?_isWhole hm, ← number?_isWhole hn] at h
  rw [Key.of?_of_number? hm, Key.of?_of_number? hn, compare_of_number? hm hn, Option.some.injEq,
    Except.ok.injEq, Key.ofNumeric_inj, Numeric.sameKey_iff_compare ha hb h]

end Value

namespace ColumnType

variable {type : ColumnType} {a b : Value}

/-- Two values that one column holds, missing ones and NaN apart, have the same key exactly if they
compare equal. -/
theorem Stores.key_eq_iff (ha : type.Stores a) (hb : type.Stores b) (hna : a.isNaN = false)
    (hnb : b.isNaN = false) : Key.of? a = Key.of? b ↔ a.compare b = .ok .eq := by
  cases ha with
  | string s =>
    cases hb
    rw [Key.of?, Key.of?, Value.compare, Option.some.injEq, Key.text.injEq, Except.ok.injEq,
      Std.compare_eq_iff_eq]
  | categorical s =>
    cases hb
    rw [Key.of?, Key.of?, Value.compare, Option.some.injEq, Key.text.injEq, Except.ok.injEq,
      Std.compare_eq_iff_eq]
  | boolean s =>
    cases hb
    rw [Key.of?, Key.of?, Value.compare, Option.some.injEq, Key.boolean.injEq, Except.ok.injEq,
      Std.compare_eq_iff_eq]
  | bytes s =>
    cases hb
    rw [Key.of?, Key.of?, Value.compare, Option.some.injEq, Key.bytes.injEq, Except.ok.injEq,
      compareBytes_eq_iff]
  | integer n =>
    cases hb
    exact Value.key_eq_iff_of_number? rfl rfl hna hnb rfl
  | long n =>
    cases hb
    exact Value.key_eq_iff_of_number? rfl rfl hna hnb rfl
  | float x =>
    cases hb
    exact Value.key_eq_iff_of_number? rfl rfl hna hnb rfl
  | double x =>
    cases hb
    exact Value.key_eq_iff_of_number? rfl rfl hna hnb rfl
  | byte n =>
    cases hb
    exact Value.key_eq_iff_of_number? rfl rfl hna hnb rfl

theorem key_eq_iff_alike (ha : type.accepts a = true) (hb : type.accepts b = true)
    (hna : a.isNaN = false) (hnb : b.isNaN = false) :
    Key.of? a = Key.of? b ↔ a.alike b = true := by
  rw [Value.alike]
  cases hanull : a.isNull with
  | true =>
    rw [Value.comparesEqual_of_isNull (.inl hanull), Key.of?_eq_none_iff.2 hanull, eq_comm,
      Key.of?_eq_none_iff, Bool.true_and, Bool.or_false]
  | false =>
    rw [Bool.false_and, Bool.false_or]
    cases hbnull : b.isNull with
    | true =>
      rw [Value.comparesEqual_of_isNull (.inr hbnull), Key.of?_eq_none_iff.2 hbnull,
        Key.of?_eq_none_iff, hanull]
    | false =>
      have hsa := stores_of_accepts ha hanull
      have hsb := stores_of_accepts hb hbnull
      rw [Value.comparesEqual_iff, hsa.key_eq_iff hsb hna hnb]

theorem sameKey_eq_meets (ha : type.accepts a = true) (hb : type.accepts b = true)
    (hna : a.isNaN = false) (hnb : b.isNaN = false) : a.sameKey b = a.meets b := by
  have halike := key_eq_iff_alike ha hb hna hnb
  rw [Bool.eq_iff_iff, Key.sameKey_iff, Value.meets]
  cases hanull : a.isNull with
  | true => simp [Key.of?_eq_none_iff.2 hanull]
  | false =>
    obtain ⟨key, hkey⟩ := Key.exists_of? hanull
    rw [Value.alike, hanull, Bool.false_and, Bool.false_or, hkey] at halike
    cases hbnull : b.isNull with
    | true => simp [Key.of?_eq_none_iff.2 hbnull]
    | false =>
      rw [Bool.not_false, Bool.true_and, Bool.true_and, ← halike, hkey]
      simp [@eq_comm _ (some key)]

end ColumnType

theorem map_eq_map_iff_isEqv {α κ : Type} [BEq κ] [LawfulBEq κ] (f : α → κ) {xs ys : List α} :
    xs.map f = ys.map f ↔ List.isEqv xs ys (fun x y => f x == f y) = true := by
  induction xs generalizing ys with
  | nil => cases ys <;> simp [List.isEqv]
  | cons x xs ih => cases ys <;> simp [List.isEqv, ih]

namespace Row.Fits

variable {types : List ColumnType} {row other : Row}

theorem isEqv_congr (hrow : row.Fits types) (hother : other.Fits types)
    (hnan : ∀ v ∈ row, v.isNaN = false) (hnan' : ∀ v ∈ other, v.isNaN = false)
    {p q : Value → Value → Bool}
    (hpq : ∀ (type : ColumnType) (v w : Value), type.accepts v = true → type.accepts w = true →
      v.isNaN = false → w.isNaN = false → p v w = q v w) :
    List.isEqv row other p = List.isEqv row other q := by
  induction hrow generalizing other with
  | nil =>
    cases hother
    rfl
  | cons hv _ ih =>
    cases hother with
    | cons hw hother =>
      obtain ⟨hhead, htail⟩ := List.forall_mem_cons.1 hnan
      obtain ⟨hhead', htail'⟩ := List.forall_mem_cons.1 hnan'
      rw [List.isEqv, List.isEqv, hpq _ _ _ hv hw hhead hhead', ih hother htail htail']

theorem keys_eq_iff_alike (hrow : row.Fits types) (hother : other.Fits types)
    (hnan : ∀ v ∈ row, v.isNaN = false) (hnan' : ∀ v ∈ other, v.isNaN = false) :
    row.map Key.of? = other.map Key.of? ↔ List.isEqv row other Value.alike = true := by
  rw [map_eq_map_iff_isEqv]
  apply Eq.congr_left
  apply hrow.isEqv_congr hother hnan hnan'
  intro type v w hv hw hnan hnan'
  rw [Bool.eq_iff_iff, beq_iff_eq, ColumnType.key_eq_iff_alike hv hw hnan hnan']

theorem isEqv_sameKey_eq_meets (hrow : row.Fits types) (hother : other.Fits types)
    (hnan : ∀ v ∈ row, v.isNaN = false) (hnan' : ∀ v ∈ other, v.isNaN = false) :
    List.isEqv row other Value.sameKey = List.isEqv row other Value.meets := by
  apply hrow.isEqv_congr hother hnan hnan'
  intro type v w hv hw hnan hnan'
  exact ColumnType.sameKey_eq_meets hv hw hnan hnan'

end Row.Fits

end Tabular
