import Tabular.Proofs.Binary.Quotient
import Tabular.Proofs.Value.Equality

namespace Tabular

theorem clamp_mono (low high : Int) : Monotone (clamp low high) :=
  fun _ _ h => max_le_max_left low (min_le_min_left high h)

theorem toInt_clampInt64 (n : Int) : (clampInt64 n).toInt = clamp (-2 ^ 63) (2 ^ 63 - 1) n :=
  Int64.toInt_ofInt_of_le (by rw [clamp]; omega) (by rw [clamp]; omega)

namespace Binary

variable {x y : Double} {r s : EReal}

theorem toInt_toInt64 (h : x.isNaN = false) :
    x.toInt64.toInt = clamp (-2 ^ 63) (2 ^ 63 - 1) x.truncate := by
  rw [toInt64, h, if_neg Bool.false_ne_true, toInt_clampInt64]

theorem ofInt_toInt_isFinite (n : Int64) : (ofInt n.toInt : Double).isFinite = true := by
  have hlow := n.le_toInt
  have hhigh := n.toInt_lt
  exact ofInt_isFinite (by omega)

theorem ofInt_toInt_extended? (n : Int64) : (ofInt n.toInt : Double).extended? =
    some (((ofInt n.toInt : Double).toRat : ℝ) : EReal) :=
  extended?_of_isFinite (ofInt_toInt_isFinite n)

/-- An integer is not rounded above a number that it is not above. -/
theorem ofInt_le_extended? {n : Int64} (hy : y.extended? = some s)
    (h : ((n.toInt : ℝ) : EReal) ≤ s) :
    (((ofInt n.toInt : Double).toRat : ℝ) : EReal) ≤ s := by
  rcases extended?_cases hy with ⟨hfinite, rfl⟩ | ⟨-, rfl⟩ | ⟨-, rfl⟩
  · rw [coe_intCast, EReal.coe_le_coe_iff, Rat.cast_le] at h
    rw [EReal.coe_le_coe_iff, Rat.cast_le]
    exact (ofInt_isNearest n.toInt).toRat_le (ofInt_toInt_isFinite n) hfinite h
  · exact absurd h (EReal.bot_lt_coe _).not_ge
  · exact le_top

theorem extended?_le_ofInt {n : Int64} (hy : y.extended? = some s)
    (h : s ≤ ((n.toInt : ℝ) : EReal)) :
    s ≤ (((ofInt n.toInt : Double).toRat : ℝ) : EReal) := by
  rcases extended?_cases hy with ⟨hfinite, rfl⟩ | ⟨-, rfl⟩ | ⟨-, rfl⟩
  · rw [coe_intCast, EReal.coe_le_coe_iff, Rat.cast_le] at h
    rw [EReal.coe_le_coe_iff, Rat.cast_le]
    exact (ofInt_isNearest n.toInt).le_toRat (ofInt_toInt_isFinite n) hfinite h
  · exact bot_le
  · exact absurd h (EReal.coe_lt_top _).not_ge

theorem ofInt_toRat_mono {m n : Int64} (h : m.toInt ≤ n.toInt) :
    (ofInt m.toInt : Double).toRat ≤ (ofInt n.toInt : Double).toRat := by
  rcases h.eq_or_lt with heq | hlt
  · rw [heq]
  · have hcast : (m.toInt : ℚ) < n.toInt := by exact_mod_cast hlt
    exact (ofInt_isNearest m.toInt).toRat_le_of_lt (ofInt_isNearest n.toInt)
      (ofInt_toInt_isFinite m) (ofInt_toInt_isFinite n) hcast

end Binary

namespace Numeric

variable {m n : Numeric} {r s : EReal}

def toInt64 : Numeric → Int64
  | whole n => n
  | real x => x.toInt64

def toDouble : Numeric → Double
  | whole n => .ofInt n.toInt
  | real x => x

/-- A number in the quanta of a double. -/
def quanta : Numeric → Int
  | whole n => n.toInt * Format.unit .binary64
  | real x => x.quanta

theorem extended?_counts (h : m.extended? = some r) : Format.Counts .binary64 m.quanta r := by
  cases m with
  | real x => exact Binary.extended?_counts h
  | whole n =>
    cases h
    have hunit : (Format.unit .binary64 : ℚ) ≠ 0 := by
      exact_mod_cast (Format.unit_pos .binary64).ne'
    have hroom : 2 ^ 63 * Format.unit .binary64 <
        Format.quantaOf .binary64 (Format.infinityCode .binary64) := by decide +kernel
    have hvalue : (((n.toInt * Format.unit .binary64 : Int) : ℚ) / Format.unit .binary64 : ℚ) =
        n.toInt := by
      rw [Int.cast_mul, Int.cast_natCast, mul_div_cancel_right₀ _ hunit]
    rw [coe_intCast, ← hvalue]
    refine .finite (Nat.lt_of_le_of_lt ?_ hroom)
    have hlow := n.le_toInt
    have hhigh := n.toInt_lt
    rw [quanta, Int.natAbs_mul, Int.natAbs_natCast]
    exact Nat.mul_le_mul_right _ (by omega)

theorem toInt_toInt64 (h : m.extended? = some r) :
    m.toInt64.toInt = clamp (-2 ^ 63) (2 ^ 63 - 1) (m.quanta.tdiv (Format.unit .binary64)) := by
  cases m with
  | whole n =>
    have hunit : (Format.unit .binary64 : Int) ≠ 0 := by
      exact_mod_cast (Format.unit_pos .binary64).ne'
    have hlow := n.le_toInt
    have hhigh := n.toInt_lt
    rw [quanta, Int.mul_tdiv_cancel _ hunit, clamp]
    change n.toInt = _
    omega
  | real x =>
    have hcut := Binary.toInt_toInt64 (Binary.isNaN_of_extended? h)
    rwa [Binary.truncate_eq_tdiv] at hcut

theorem toInt64_mono (hm : m.extended? = some r) (hn : n.extended? = some s) (h : r ≤ s) :
    m.toInt64.toInt ≤ n.toInt64.toInt := by
  have hquanta : m.quanta ≤ n.quanta :=
    not_lt.1 fun hlt => h.not_gt (((extended?_counts hn).lt_iff (extended?_counts hm)).2 hlt)
  have hunit : (0 : Int) < Format.unit .binary64 := by
    exact_mod_cast Format.unit_pos .binary64
  rw [toInt_toInt64 hm, toInt_toInt64 hn]
  exact clamp_mono _ _ (Int.tdiv_le_tdiv hunit hquanta)

theorem toDouble_mono (hm : m.extended? = some r) (hn : n.extended? = some s) (h : r ≤ s) :
    ∃ r' s', m.toDouble.extended? = some r' ∧ n.toDouble.extended? = some s' ∧ r' ≤ s' := by
  cases m with
  | real x =>
    cases n with
    | real y => exact ⟨r, s, hm, hn, h⟩
    | whole n =>
      cases hn
      exact ⟨r, _, hm, Binary.ofInt_toInt_extended? n, Binary.extended?_le_ofInt hm h⟩
  | whole m =>
    cases hm
    cases n with
    | real y => exact ⟨_, s, Binary.ofInt_toInt_extended? m, hn, Binary.ofInt_le_extended? hn h⟩
    | whole n =>
      cases hn
      refine ⟨_, _, Binary.ofInt_toInt_extended? m, Binary.ofInt_toInt_extended? n, ?_⟩
      rw [EReal.coe_le_coe_iff, Int.cast_le] at h
      rw [EReal.coe_le_coe_iff, Rat.cast_le]
      exact Binary.ofInt_toRat_mono h

end Numeric

namespace Value

variable {v x y : Value} {m n : Numeric}

theorem toInt64_of_numeric (h : v.numeric = some m) : v.toInt64 = .ok m.toInt64 := by
  rw [toInt64, h]
  cases m <;> rfl

theorem toDouble_of_numeric (h : v.numeric = some m) : v.toDouble = .ok m.toDouble := by
  rw [toDouble, h]
  cases m <;> rfl

theorem toInt64_of_number? (h : v.number? = some m) : v.toInt64 = .ok m.toInt64 :=
  toInt64_of_numeric (numeric_of_number? h)

theorem toDouble_of_number? (h : v.number? = some m) : v.toDouble = .ok m.toDouble :=
  toDouble_of_numeric (numeric_of_number? h)

theorem exists_extended? (h : v.number? = some m) (hnan : v.isNaN = false) :
    ∃ r, m.extended? = some r := by
  apply Option.ne_none_iff_exists'.1
  intro hnone
  obtain ⟨x, rfl, hx⟩ := Numeric.exists_isNaN hnone
  have heq := number?_isNaN h
  rw [hnan, Numeric.isNaN, hx] at heq
  cases heq

end Value

end Tabular
