import Tabular.Proofs.Binary.Narrowing
import Tabular.Proofs.Value.Conversion

namespace Tabular

def InInt32 (n : Int) : Prop := -2 ^ 31 ≤ n ∧ n < 2 ^ 31

instance (n : Int) : Decidable (InInt32 n) :=
  inferInstanceAs (Decidable (_ ∧ _))

theorem inInt32_clamp_iff {n : Int} : InInt32 (clamp (-2 ^ 63) (2 ^ 63 - 1) n) ↔ InInt32 n := by
  rw [InInt32, InInt32, clamp]
  omega

theorem clamp_of_inInt32 {n : Int} (h : InInt32 n) : clamp (-2 ^ 63) (2 ^ 63 - 1) n = n := by
  rw [InInt32] at h
  rw [clamp]
  omega

namespace Binary

variable {x : Double}

theorem not_inInt32_truncate_infinity (negative : Bool) :
    ¬InInt32 (infinity negative : Double).truncate := by
  cases negative <;> decide +kernel

theorem isFinite_of_inInt32 (hnan : x.isNaN = false) (h : InInt32 x.truncate) :
    x.isFinite = true := by
  rw [isFinite_iff hnan]
  intro hinfinite
  rw [eq_infinity hinfinite] at h
  exact not_inInt32_truncate_infinity _ h

/-- The whole part of a number is compared with the bounds of the integers of 32 bits, all as
doubles. -/
def fitsInt32 (x : Double) : Bool :=
  let whole : Double := ofInt x.truncate
  x.isFinite && (ofInt (-2 ^ 31) : Double).le whole && whole.le (ofInt (2 ^ 31 - 1))

theorem fitsInt32_iff : x.fitsInt32 = true ↔ x.isFinite = true ∧ InInt32 x.truncate := by
  rw [fitsInt32, Bool.and_assoc, Bool.and_eq_true, Bool.and_eq_true, InInt32]
  apply and_congr_right
  intro hfinite
  have hwhole := ofInt_truncate hfinite
  have hleast : (ofInt (-2 ^ 31) : Double).extended? = some (((-2 ^ 31 : Int) : ℝ) : EReal) :=
    ofInt_extended?_of_lt (by decide)
  have hmost : (ofInt (2 ^ 31 - 1) : Double).extended? = some (((2 ^ 31 - 1 : Int) : ℝ) : EReal) :=
    ofInt_extended?_of_lt (by decide)
  rw [le_iff hleast hwhole, le_iff hwhole hmost, EReal.coe_le_coe_iff, EReal.coe_le_coe_iff,
    Int.cast_le, Int.cast_le, Int.le_sub_one_iff]

theorem not_fitsInt32_of_isNaN (h : x.isNaN = true) : ¬x.fitsInt32 = true := by
  intro hfits
  rw [isNaN_of_isFinite (fitsInt32_iff.1 hfits).1] at h
  cases h

end Binary

namespace Value

variable {v : Value} {m : Numeric}

/-- A 64-bit integer that a value was converted to, in 32 bits. -/
def narrow (v : Value) (n : Int64) : Except Error Int32 :=
  if InInt32 n.toInt then .ok (Int32.ofInt n.toInt)
  else .error (.numericOverflow (.value v) .integer)

theorem narrow_eq_ok_iff {n : Int64} {m : Int32} :
    v.narrow n = .ok m ↔ InInt32 n.toInt ∧ m.toInt = n.toInt := by
  rw [narrow]
  split
  · next hfits =>
    rw [Except.ok.injEq, and_iff_right hfits, ← Int32.toInt_inj,
      Int32.toInt_ofInt_of_le hfits.1 hfits.2]
    exact eq_comm
  · next hfits => exact iff_of_false nofun fun h => hfits h.1

theorem narrow_eq_error_iff {n : Int64} {error : Error} :
    v.narrow n = .error error ↔
      error = .numericOverflow (.value v) .integer ∧ ¬InInt32 n.toInt := by
  rw [narrow]
  split
  · next hfits => exact iff_of_false nofun fun h => h.2 hfits
  · next hfits =>
    rw [Except.error.injEq, and_iff_left hfits]
    exact eq_comm

/-- A number fits after it was cut to 64 bits exactly if its whole part did, as the ends of the
range do not fit. -/
theorem narrow_toInt64 {x : Double} (hnan : x.isNaN = false) :
    v.narrow x.toInt64 = if x.fitsInt32 then .ok (Int32.ofInt x.truncate)
      else .error (.numericOverflow (.value v) .integer) := by
  rw [narrow, Binary.toInt_toInt64 hnan]
  by_cases hfits : InInt32 x.truncate
  · have hfinite := Binary.isFinite_of_inInt32 hnan hfits
    rw [if_pos (Binary.fitsInt32_iff.2 ⟨hfinite, hfits⟩), clamp_of_inInt32 hfits, if_pos hfits]
  · rw [if_neg fun h => hfits (Binary.fitsInt32_iff.1 h).2,
      if_neg fun h => hfits (inInt32_clamp_iff.1 h)]

theorem isNaN_of_numeric_eq_none (h : v.numeric = none) : v.isNaN = false := by
  cases v <;> first | rfl | cases h

theorem toInt32_of_whole {n : Int64} (h : v.numeric = some (.whole n)) :
    v.toInt32 = v.narrow n := by
  rw [toInt32, h]
  change (if true && decide (InInt32 n.toInt) then _ else _) = _
  simp only [narrow, Bool.true_and, decide_eq_true_eq]

theorem toInt32_of_real {x : Double} (h : v.numeric = some (.real x)) :
    v.toInt32 = if x.fitsInt32 then .ok (Int32.ofInt x.truncate)
      else .error (.numericOverflow (.value v) .integer) := by
  have hfits : (x.isFinite && decide (InInt32 x.truncate)) = x.fitsInt32 := by
    rw [Bool.eq_iff_iff, Bool.and_eq_true, decide_eq_true_iff, Binary.fitsInt32_iff]
  rw [toInt32, h, ← hfits]
  rfl

/-- But for NaN values, the conversion to 32 bits is the one to 64 bits followed by a checked
narrowing. -/
theorem toInt32_eq (v : Value) :
    v.toInt32 = if v.isNaN then .error (.numericOverflow (.value v) .integer)
      else v.toInt64.bind v.narrow := by
  cases hm : v.numeric with
  | none =>
    rw [toInt32, toInt64, hm, isNaN_of_numeric_eq_none hm]
    rfl
  | some m =>
    rw [toInt64_of_numeric hm, ← numeric_isNaN hm]
    cases m with
    | whole n => exact toInt32_of_whole hm
    | real x =>
      change _ = if x.isNaN then _ else v.narrow x.toInt64
      rw [toInt32_of_real hm]
      cases hnan : x.isNaN with
      | true => rw [if_neg (Binary.not_fitsInt32_of_isNaN hnan), if_pos rfl]
      | false => rw [if_neg Bool.false_ne_true, narrow_toInt64 hnan]

theorem toInt32_eq_notNumeric_iff {u : Value} :
    v.toInt32 = .error (.notNumeric u) ↔ v.toInt64 = .error (.notNumeric u) := by
  cases hm : v.numeric with
  | none =>
    rw [toInt32, toInt64, hm]
    exact error_eq_error
  | some m =>
    rw [toInt32_eq, toInt64_of_numeric hm]
    constructor
    · intro herror
      split at herror
      · cases herror
      · cases (narrow_eq_error_iff.1 herror).1
    · intro herror
      cases herror

/-- The conversion to 32 bits is the one to 64 bits with a check, but that it refuses NaN values. -/
theorem toInt32_narrows (v : Value) :
    (∀ u, v.toInt32 = .error (.notNumeric u) ↔ v.toInt64 = .error (.notNumeric u)) ∧
      (v.isNumeric = false → v.toInt64 = .error (.notNumeric v)) ∧
      (v.isNaN = true → v.toInt32 = .error (.numericOverflow (.value v) .integer)) ∧
      (v.isNumeric = true → v.isNaN = false → ∃ n, v.toInt64 = .ok n ∧
        (∀ m, v.toInt32 = .ok m ↔ InInt32 n.toInt ∧ m.toInt = n.toInt) ∧
        ∀ error, v.toInt32 = .error error ↔
          error = .numericOverflow (.value v) .integer ∧ ¬InInt32 n.toInt) ∧
      (∀ x, v.numeric = some (.real x) → v.toInt32 =
        if x.fitsInt32 then .ok (Int32.ofInt x.truncate)
        else .error (.numericOverflow (.value v) .integer)) := by
  refine ⟨fun u => toInt32_eq_notNumeric_iff, ?_, ?_, ?_, fun x => toInt32_of_real⟩
  · intro h
    rw [isNumeric, Option.isSome_eq_false_iff, Option.isNone_iff_eq_none] at h
    rw [toInt64, h]
  · intro h
    rw [toInt32_eq, if_pos h]
  · intro h hnan
    obtain ⟨m, hm⟩ := Option.isSome_iff_exists.1 h
    have hwide := toInt64_of_numeric hm
    have hnarrow : v.toInt32 = v.narrow m.toInt64 := by
      rw [toInt32_eq, hnan, if_neg Bool.false_ne_true, hwide]
      rfl
    rw [hnarrow]
    exact ⟨m.toInt64, hwide, fun k => narrow_eq_ok_iff, fun error => narrow_eq_error_iff⟩

theorem toInt32_narrows_of_limits :
    let within : Value := .double (.ofBits 0x41dfffffffffffff)
    let beyond : Value := .double (.ofBits 0x41e0000000000000)
    let nan : Value := .double .nan
    within.toInt32 = .ok 2147483647 ∧
      beyond.toInt32 = .error (.numericOverflow (.value beyond) .integer) ∧
      nan.toInt32 = .error (.numericOverflow (.value nan) .integer) := by
  intro within beyond nan
  have hwithin : within.toInt64 = .ok 2147483647 := congrArg Except.ok (by decide +kernel)
  have hbeyond : beyond.toInt64 = .ok 2147483648 := congrArg Except.ok (by decide +kernel)
  obtain ⟨-, -, -, hwhole, -⟩ := toInt32_narrows within
  obtain ⟨-, -, -, hwhole', -⟩ := toInt32_narrows beyond
  obtain ⟨-, -, hnan, -, -⟩ := toInt32_narrows nan
  obtain ⟨n, hn, hok, -⟩ := hwhole rfl (by decide +kernel)
  obtain ⟨n', hn', -, herror⟩ := hwhole' rfl (by decide +kernel)
  cases hwithin.symm.trans hn
  cases hbeyond.symm.trans hn'
  exact ⟨(hok _).2 (by decide), (herror _).2 ⟨rfl, by decide⟩, hnan (by decide +kernel)⟩

theorem toDouble_of_whole {n : Int64} (h : v.numeric = some (.whole n)) :
    v.toDouble = .ok (.ofInt n.toInt) :=
  toDouble_of_numeric h

theorem toSingle_of_whole {n : Int64} (h : v.numeric = some (.whole n)) :
    v.toSingle = .ok (Binary.singleOfInt n.toInt) := by
  rw [toSingle.eq_def]
  split
  · cases h
  · rw [toDouble_of_whole h]
    rfl

/-- An integer becomes the nearest single by way of the nearest double, unless it is beside a
midpoint of singles on the side of the odd one. -/
theorem toSingle_isNearest_iff {n : Int64} (h : v.numeric = some (.whole n)) :
    ∃ (d : Double) (s : Single), v.toDouble = .ok d ∧ v.toSingle = .ok s ∧
      d.IsNearest n.toInt ∧ s.IsNearest d.toRat ∧
      (s.IsNearest n.toInt ↔ ¬BesideMidpoint (2 ^ (n.toInt.natAbs.log2 - 23))
        (2 ^ (n.toInt.natAbs.log2 - 52)) n.toInt.natAbs) ∧
      (n.toInt.natAbs < 2 ^ 53 → s.IsNearest n.toInt) := by
  have hlow := n.le_toInt
  have hhigh := n.toInt_lt
  refine ⟨_, _, toDouble_of_whole h, toSingle_of_whole h, Binary.ofInt_isNearest n.toInt,
    Binary.convert_isNearest (Binary.ofInt_toInt_isFinite n), ?_,
    Binary.singleOfInt_isNearest_of_lt⟩
  exact Binary.singleOfInt_isNearest_iff (by omega)

theorem toSingle_isNearest_iff_of_greatest :
    ∃ s : Single, (Value.long Int64.maxValue).toSingle = .ok s ∧ s.IsNearest (2 ^ 63 - 1) := by
  obtain ⟨-, s, -, hs, -, -, hiff, -⟩ := toSingle_isNearest_iff (v := .long Int64.maxValue) rfl
  refine ⟨s, hs, ?_⟩
  have hnearest := hiff.2 (by decide +kernel)
  exact_mod_cast hnearest

/-- One above the midpoint of two singles becomes the midpoint as a double and then the lower
single, though the upper one is nearer. -/
theorem not_isNearest_toSingle_of_midpoint :
    let n : Int64 := 9007199791611905
    ∃ s z : Single, (Value.long n).toSingle = .ok s ∧ s.toRat = 2 ^ 53 ∧
      z.isFinite = true ∧ z.toRat = 2 ^ 53 + 2 ^ 30 ∧
      |(n.toInt : ℚ) - z.toRat| < |(n.toInt : ℚ) - s.toRat| ∧ ¬s.IsNearest n.toInt := by
  intro n
  have hlow : Format.quantaOf .binary32 (0xb4 * 2 ^ 23) =
      (2 ^ 53 : Int).natAbs * Format.unit .binary32 := by decide +kernel
  have hhigh : Format.quantaOf .binary32 (0xb4 * 2 ^ 23 + 1) =
      (2 ^ 53 + 2 ^ 30 : Int).natAbs * Format.unit .binary32 := by decide +kernel
  have hrounded : Binary.singleOfInt n.toInt = .ofInt (2 ^ 53) := by decide +kernel
  have hsingle := toSingle_of_whole (v := .long n) rfl
  rw [hrounded] at hsingle
  obtain ⟨hfinite, hs⟩ := Binary.ofInt_toRat hlow (by decide)
  obtain ⟨hfinite', hz⟩ := Binary.ofInt_toRat hhigh (by decide)
  have hs' : (Binary.ofInt (2 ^ 53) : Single).toRat = 2 ^ 53 := hs.trans (by norm_num)
  have hz' : (Binary.ofInt (2 ^ 53 + 2 ^ 30) : Single).toRat = 2 ^ 53 + 2 ^ 30 :=
    hz.trans (by norm_num)
  have hn : (n.toInt : ℚ) = 2 ^ 53 + 2 ^ 29 + 1 := by
    have hvalue : n.toInt = 2 ^ 53 + 2 ^ 29 + 1 := by decide
    exact_mod_cast hvalue
  have hnearer : |(n.toInt : ℚ) - (Binary.ofInt (2 ^ 53 + 2 ^ 30) : Single).toRat| <
      |(n.toInt : ℚ) - (Binary.ofInt (2 ^ 53) : Single).toRat| := by
    rw [hn, hs', hz']
    norm_num
  refine ⟨_, _, hsingle, hs', hfinite', hz', hnearer, ?_⟩
  intro hnearest
  exact (hnearest.nearest hfinite _ hfinite').not_gt hnearer

end Value

end Tabular
