import Tabular.Definition.Cell
import Tabular.Proofs.Binary.Extended
import Tabular.Proofs.Except
import Tabular.Proofs.Value.Stored

namespace Tabular

/-- A NaN as the one that stands for all. -/
def Binary.canonical {f : Format} (x : Binary f) : Binary f := if x.isNaN then .nan else x

/-- A value with a NaN as the one that stands for all. -/
def Value.canonical : Value → Value
  | float x => float x.canonical
  | double x => double x.canonical
  | v => v

namespace Binary

theorem nan_isNaN {f : Format} : (nan : Binary f).isNaN = true := by
  cases f <;> decide

theorem canonical_of_isNaN {f : Format} {x : Binary f} (h : x.isNaN = true) : x.canonical = .nan :=
  if_pos h

theorem canonical_of_not_isNaN {f : Format} {x : Binary f} (h : x.isNaN = false) :
    x.canonical = x :=
  if_neg (Bool.eq_false_iff.1 h)

theorem canonical_isNaN {f : Format} (x : Binary f) : x.canonical.isNaN = x.isNaN := by
  cases h : x.isNaN with
  | true => rw [canonical_of_isNaN h, nan_isNaN]
  | false => rw [canonical_of_not_isNaN h, h]

theorem convert_convert {x : Single} (h : x.isNaN = false) :
    (x.convert : Double).convert = x := by
  have hnot : ¬x.isNaN = true := by rw [h]; exact Bool.false_ne_true
  have hnan : ¬(x.convert : Double).isNaN = true := by rw [convert_isNaN]; exact hnot
  by_cases hi : x.isInfinite = true
  · have hwide : (x.convert : Double) = infinity x.negative := by
      rw [convert, if_neg hnot, if_pos hi]
    have hwidei : (infinity x.negative : Double).isInfinite = true := beq_self_eq_true _
    rw [convert, if_neg hnan, hwide, if_pos hwidei]
    exact (eq_infinity hi).symm
  · have hfinite := (isFinite_iff h).2 hi
    obtain ⟨code, hcode, hlt⟩ := exists_code_of_single hfinite
    obtain ⟨hexact, hmagnitude⟩ := ofRatio_of_quantaOf x.negative
      (Format.unit_pos .binary32) hcode hlt
    have hwide : (x.convert : Double) =
        ofRatio x.negative (x.magnitude * Format.unit .binary64) (Format.unit .binary32) := by
      rw [convert, if_neg hnot, if_neg hi]
    have hwidei : ¬(x.convert : Double).isInfinite = true := by
      rw [hwide, isInfinite_of_isFinite hexact]
      exact Bool.false_ne_true
    have hone := Format.codeNear_mul_right (f := .binary32) x.magnitude Nat.one_pos
      (Format.unit_pos .binary64)
    rw [Nat.one_mul] at hone
    rw [convert, if_neg hnan, if_neg hwidei, convert_negative, hwide, hmagnitude, hcode, ofRatio]
    simp only [hone]
    exact ofRatio_magnitude hfinite

theorem convert_canonical_convert (x : Single) :
    (x.convert : Double).canonical.convert = x.canonical := by
  cases h : x.isNaN with
  | true =>
    rw [canonical_of_isNaN h, canonical_of_isNaN ((convert_isNaN x).trans h)]
    decide +kernel
  | false =>
    rw [canonical_of_not_isNaN h, canonical_of_not_isNaN ((convert_isNaN x).trans h),
      convert_convert h]

theorem double?_toNode (x : Double) : (toNode x).double? = some x.canonical := by
  rw [toNode]
  by_cases hfinite : x.isFinite = true
  · rw [if_pos hfinite, canonical_of_not_isNaN (isNaN_of_isFinite hfinite)]
    rfl
  · rw [if_neg hfinite]
    by_cases hnan : x.isNaN = true
    · rw [if_pos hnan, canonical_of_isNaN hnan]
      rfl
    · have hn : x.isNaN = false := Bool.eq_false_iff.2 hnan
      have hi : x.isInfinite = true := by
        by_contra hnot
        exact hfinite ((isFinite_iff hn).2 hnot)
      rw [if_neg hnan, canonical_of_not_isNaN hn, eq_infinity hi]
      cases x.negative <;> rfl

end Binary

namespace Node

theorem int64?_toInt (n : Int64) : (whole n.toInt).int64? = some n := by
  have hrange : -0x8000000000000000 ≤ n.toInt ∧ n.toInt ≤ 0x7fffffffffffffff := by
    have := n.le_toInt
    have := n.toInt_lt
    omega
  rw [int64?, wholeIn?, whole?, Option.filter_some, if_pos (decide_eq_true hrange),
    Option.map_some, Int64.ofInt_toInt]

theorem bytes?_map (data : List UInt8) :
    (list (data.map fun b => whole b.toNat)).bytes? = some data := by
  rw [bytes?, list?, Option.bind_some, ← List.map_id data, List.map_map]
  apply mapM_map_eq_pure
  intro b _
  rw [Function.comp_id]
  have hb : (0 : Int) ≤ (b.toNat : Int) ∧ (b.toNat : Int) ≤ 255 := by
    have := b.toNat_lt
    omega
  rw [wholeIn?, whole?, Option.filter_some, if_pos (decide_eq_true hb), Option.map_some]
  simp

end Node

namespace Value

variable {type : ColumnType} {v : Value} {n : Node}

theorem accepts_of_ofNode (h : ofNode type n = .ok v) : type.accepts v = true := by
  rw [ofNode.eq_def] at h
  dsimp only at h
  split at h
  · cases h
    exact type.accepts_null
  all_goals
    split at h
    · first
      | cases h
        rfl
      | split at h
        · cases h
          rfl
        · cases h
    · cases h

theorem ofNode_integer (n : Int64) : ofNode .integer (.whole n.toInt) =
    if -0x80000000 ≤ n.toInt ∧ n.toInt ≤ 0x7fffffff then .ok (.integer n.toInt32)
    else .error (.numericOverflow (.whole n.toInt) .integer) := by
  simp only [ofNode, Node.int64?_toInt]

theorem ofNode_long (n : Int64) : ofNode .long (.whole n.toInt) = .ok (.long n) := by
  simp only [ofNode, Node.int64?_toInt]

theorem ofNode_byte (n : Int64) : ofNode .byte (.whole n.toInt) =
    if -128 ≤ n.toInt ∧ n.toInt ≤ 127 then .ok (.byte n.toInt8)
    else .error (.numericOverflow (.whole n.toInt) .byte) := by
  simp only [ofNode, Node.int64?_toInt]

theorem ofNode_double (x : Double) :
    ofNode .double (Binary.toNode x) = .ok (.double x.canonical) := by
  have hx := x.double?_toNode
  generalize Binary.toNode x = n at hx
  cases n with
  | null => cases hx
  | _ => simp only [ofNode, hx]

theorem ofNode_float (x : Double) :
    ofNode .float (Binary.toNode x) = .ok (.float x.canonical.convert) := by
  have hx := x.double?_toNode
  generalize Binary.toNode x = n at hx
  cases n with
  | null => cases hx
  | _ => simp only [ofNode, hx]

/-- A value that a column accepts is read back, a NaN as the one that stands for all. -/
theorem ofNode_toNode_eq_canonical (h : type.accepts v = true) :
    ofNode type v.toNode = .ok v.canonical := by
  rcases ColumnType.accepts_iff.1 h with rfl | hstores
  · cases type <;> rfl
  cases hstores with
  | string s | categorical s | boolean b => rfl
  | integer n =>
    have hrange : -0x80000000 ≤ n.toInt ∧ n.toInt ≤ 0x7fffffff := by
      have := n.le_toInt
      have := n.toInt_lt
      omega
    have hread := ofNode_integer n.toInt64
    rw [Int32.toInt_toInt64, if_pos hrange, Int32.toInt32_toInt64] at hread
    exact hread
  | long n => exact ofNode_long n
  | byte n =>
    have hrange : -128 ≤ n.toInt ∧ n.toInt ≤ 127 := by
      have := n.le_toInt
      have := n.toInt_lt
      omega
    have hread := ofNode_byte n.toInt64
    rw [Int8.toInt_toInt64, if_pos hrange, Int8.toInt8_toInt64] at hread
    exact hread
  | float x =>
    have hread := ofNode_float x.convert
    rw [Binary.convert_canonical_convert] at hread
    exact hread
  | double x => exact ofNode_double x
  | bytes data =>
    have hread := Node.bytes?_map data
    rw [toNode]
    simp only [ofNode, hread]
    rfl

theorem canonical_of_not_isNaN (h : v.isNaN = false) : v.canonical = v := by
  cases v with
  | float x => exact congrArg float (Binary.canonical_of_not_isNaN h)
  | double x => exact congrArg double (Binary.canonical_of_not_isNaN h)
  | _ => rfl

theorem canonical_isNaN (v : Value) : v.canonical.isNaN = v.isNaN := by
  cases v with
  | float x => exact x.canonical_isNaN
  | double x => exact x.canonical_isNaN
  | _ => rfl

theorem ofNode_toNode (h : type.accepts v = true) (hnan : v.isNaN = false) :
    ofNode type v.toNode = .ok v := by
  rw [ofNode_toNode_eq_canonical h, canonical_of_not_isNaN hnan]

theorem toNode_eq_null_iff : v.toNode = .null ↔ v.isNull = true := by
  have hreal (x : Double) : Binary.toNode x ≠ .null := by
    intro h
    have hx := x.double?_toNode
    rw [h] at hx
    cases hx
  cases v with
  | float x => exact iff_of_false (hreal x.convert) Bool.false_ne_true
  | double x => exact iff_of_false (hreal x) Bool.false_ne_true
  | _ => simp [toNode, isNull]

/-- What is read for a type belongs to its columns, and what such a column holds is read back, a NaN
as a NaN. -/
theorem restored_by_type (type : ColumnType) :
    (∀ n v, ofNode type n = .ok v → type.accepts v = true) ∧
      (∀ v, type.accepts v = true → v.isNaN = false → ofNode type v.toNode = .ok v) ∧
      ∀ v, type.accepts v = true → v.isNaN = true →
        ∃ w, ofNode type v.toNode = .ok w ∧ w.isNaN = true := by
  refine ⟨fun n v hread => accepts_of_ofNode hread, fun v h hnan => ofNode_toNode h hnan, ?_⟩
  intro v h hnan
  exact ⟨v.canonical, ofNode_toNode_eq_canonical h, v.canonical_isNaN.trans hnan⟩

theorem restored_by_type_of_nan :
    ofNode .categorical (Value.string "NaN").toNode = .ok (.string "NaN") ∧
      (∃ v, ofNode .float (.text "NaN") = .ok v ∧ ColumnType.float.accepts v = true) ∧
      (Value.float .invalid).toNode = .text "NaN" ∧
      ∃ w, ofNode .float (Value.float .invalid).toNode = .ok w ∧ w.isNaN = true := by
  have hnan : (Value.float .invalid).isNaN = true := by decide +kernel
  obtain ⟨-, htext, -⟩ := restored_by_type .categorical
  obtain ⟨haccepts, -, hfloat⟩ := restored_by_type .float
  refine ⟨htext (.string "NaN") rfl rfl, ⟨_, rfl, haccepts (.text "NaN") _ rfl⟩, ?_, ?_⟩
  · rfl
  · exact hfloat (.float .invalid) rfl hnan

end Value

end Tabular
