import Tabular.Binary.Arithmetic
import Tabular.Proofs.Binary.Extended

namespace Tabular

theorem Format.one_lt_codeLimit (f : Format) : 1 < f.codeLimit := by
  cases f <;> decide

theorem Format.codeNear_zero (f : Format) {d : Nat} (hd : 0 < d) : f.codeNear 0 d = 0 := by
  have hround := roundEven_mul 0 hd
  rw [Nat.zero_mul] at hround
  simp [codeNear, hround]

namespace Binary

variable {f : Format}

/-- The least positive number. -/
def least : Binary f := ⟨false, 1, f.one_lt_codeLimit⟩

theorem least_isFinite : (least : Binary f).isFinite = true := by
  cases f <;> decide

theorem least_toRat : (least : Binary f).toRat = 1 / f.unit := by
  have hmagnitude : (least : Binary f).magnitude = 1 := by cases f <;> decide
  have hsign : (least : Binary f).negative = false := rfl
  rw [toRat_eq, hmagnitude, hsign, if_neg Bool.false_ne_true, one_mul, Nat.cast_one]

variable {x y z : Binary f} {r : ℚ}

theorem magnitude_pos (hx : x.isFinite = true) (hzero : x.isZero = false) : 0 < x.magnitude := by
  rw [Nat.pos_iff_ne_zero, Ne, magnitude_eq_zero_iff hx, hzero]
  exact Bool.false_ne_true

theorem IsNearest.isFinite_of_lt (h : x.IsNearest r) (hr : |r| < f.overflow) : x.isFinite = true :=
  (isFinite_iff h.isNaN).2 fun hinfinite => (h.isInfinite_iff.1 hinfinite).not_gt hr

theorem IsNearest.le_toRat (h : x.IsNearest r) (hx : x.isFinite = true) (hz : z.isFinite = true)
    (hle : z.toRat ≤ r) : z.toRat ≤ x.toRat := by
  by_contra hlt
  have hnear := h.nearest hx z hz
  rw [abs_of_nonneg (by linarith), abs_of_nonneg (by linarith)] at hnear
  linarith

theorem IsNearest.toRat_le (h : x.IsNearest r) (hx : x.isFinite = true) (hz : z.isFinite = true)
    (hle : r ≤ z.toRat) : x.toRat ≤ z.toRat := by
  by_contra hlt
  have hnear := h.nearest hx z hz
  rw [abs_of_nonpos (by linarith), abs_of_nonpos (by linarith)] at hnear
  linarith

/-- Rounding keeps the order: two numbers out of order would have their mean above the greater exact
one and below the smaller. -/
theorem IsNearest.toRat_le_of_lt {s : ℚ} (hx : x.IsNearest r) (hy : y.IsNearest s)
    (hfx : x.isFinite = true) (hfy : y.isFinite = true) (hlt : r < s) : x.toRat ≤ y.toRat := by
  by_contra hnot
  have hleft := hx.nearest hfx y hfy
  have hright := hy.nearest hfy x hfx
  rw [← sq_le_sq] at hleft hright
  have habove : x.toRat + y.toRat ≤ 2 * r := by nlinarith
  have hbelow : 2 * s ≤ x.toRat + y.toRat := by nlinarith
  linarith

theorem toRat_pos_iff : 0 < x.toRat ↔ x.isZero = false ∧ x.negative = false := by
  have hpos := f.quantaOf_strictMono.lt_iff_lt (a := 0) (b := x.code)
  have hzero := toRat_lt_iff (x := zero) (y := x)
  rw [quanta_lt_iff, toRat, quanta_zero, Int.cast_zero, zero_div] at hzero
  rw [hzero, isZero, orderKey, orderKey]
  cases x.negative with
  | true => simp [zero]
  | false => simp [zero, Nat.pos_iff_ne_zero]

theorem IsNearest.isPositive_of_le (h : x.IsNearest r) (hz : z.isFinite = true) (hpos : 0 < z.toRat)
    (hle : z.toRat ≤ r) : x.isPositive = true := by
  have hsign : x.negative = false := by
    rw [h.negative (by linarith), decide_eq_false_iff_not]
    linarith
  have hzero : x.isZero = false := by
    by_contra hne
    have hx : x.isFinite = true := by
      rw [Bool.not_eq_false, isZero, beq_iff_eq] at hne
      rw [isFinite, hne, decide_eq_true_iff]
      exact f.infinityCode_pos
    have hxpos := toRat_pos_iff.1 (hpos.trans_le (h.le_toRat hx hz hle))
    exact hne hxpos.1
  rw [isPositive, h.isNaN, hzero, hsign]
  rfl

theorem ofInt_isNearest (n : Int) : (ofInt n : Binary f).IsNearest n := by
  have hunit : (f.unit : ℚ) ≠ 0 := by exact_mod_cast f.unit_pos.ne'
  have hratio : ratio f (decide (n < 0)) (n.natAbs * f.unit) 1 = n := by
    rw [ratio, Nat.cast_one, div_one, Nat.cast_mul, mul_div_cancel_right₀ _ hunit, Nat.cast_natAbs,
      Int.cast_abs]
    by_cases hneg : n < 0
    · rw [if_pos (decide_eq_true hneg), abs_of_neg (by exact_mod_cast hneg), neg_one_mul, neg_neg]
    · have hnonneg : (0 : ℚ) ≤ n := by exact_mod_cast not_lt.1 hneg
      rw [if_neg (by simpa using hneg), abs_of_nonneg hnonneg, one_mul]
  have hnearest : (ofInt n : Binary f).IsNearest (ratio f (decide (n < 0)) (n.natAbs * f.unit) 1) :=
    ofRatio_isNearest _ _ Nat.one_pos
  rwa [hratio] at hnearest

theorem ofInt_zero : (ofInt 0 : Binary f) = zero := by
  have hcode : f.codeNear (Int.natAbs 0 * f.unit) 1 = 0 := by
    rw [Int.natAbs_zero, Nat.zero_mul, f.codeNear_zero Nat.one_pos]
  simp only [ofInt, ofRatio, hcode]
  rfl

theorem ofInt_one : (ofInt 1 : Binary f).isFinite = true ∧ (ofInt 1 : Binary f).toRat = 1 := by
  have hexact := ofInt_toRat_of_lt (f := f) (n := 1) (Nat.one_lt_two_pow (Nat.succ_ne_zero _))
  rwa [Int.cast_one] at hexact

theorem ofInt_isFinite {n : Int} (h : n.natAbs < 2 ^ 127) : (ofInt n : Double).isFinite = true := by
  have hroom : (2 ^ 127 : ℚ) ≤ Format.overflow .binary64 := by
    have hoverflow : Format.overflow .binary64 = 2 ^ 1023 + 2 ^ 1023 - 2 ^ 970 := by
      rw [← mul_two, ← pow_succ]
      rfl
    have hlow : (2 ^ 127 : ℚ) ≤ 2 ^ 1023 := pow_le_pow_right₀ one_le_two (by decide)
    have hstep : (2 ^ 970 : ℚ) ≤ 2 ^ 1023 := pow_le_pow_right₀ one_le_two (by decide)
    rw [hoverflow, le_sub_iff_add_le]
    exact add_le_add hlow hstep
  refine (ofInt_isNearest n).isFinite_of_lt ?_
  have hlt : (n.natAbs : ℚ) < 2 ^ 127 := by exact_mod_cast h
  rw [Nat.cast_natAbs, Int.cast_abs] at hlt
  exact hlt.trans_le hroom

theorem one_le_ofInt {n : Int} (hpos : 0 < n) (hlt : n < 2 ^ 127) :
    (ofInt n : Double).isFinite = true ∧ 1 ≤ (ofInt n : Double).toRat := by
  obtain ⟨hone, hvalue⟩ := ofInt_one (f := .binary64)
  have hfinite : (ofInt n : Double).isFinite = true := ofInt_isFinite (by omega)
  refine ⟨hfinite, ?_⟩
  rw [← hvalue]
  refine (ofInt_isNearest n).le_toRat hfinite hone ?_
  rw [hvalue]
  exact_mod_cast hpos

theorem div_isNearest (hx : x.isFinite = true) (hy : y.isFinite = true) (hzero : y.isZero = false) :
    (x.div y).IsNearest (x.toRat / y.toRat) := by
  have hunit : (f.unit : ℚ) ≠ 0 := by exact_mod_cast f.unit_pos.ne'
  have hpos := magnitude_pos hy hzero
  have hdiv : x.div y =
      ofRatio (x.negative != y.negative) (x.magnitude * f.unit) y.magnitude := by
    simp only [div, isNaN_of_isFinite hx, isNaN_of_isFinite hy, isInfinite_of_isFinite hx,
      isInfinite_of_isFinite hy, hzero, Bool.false_eq_true, ↓reduceIte]
  have hratio : ratio f (x.negative != y.negative) (x.magnitude * f.unit) y.magnitude =
      x.toRat / y.toRat := by
    have hne : (y.magnitude : ℚ) ≠ 0 := by exact_mod_cast hpos.ne'
    rw [ratio, toRat_eq, toRat_eq]
    cases x.negative <;> cases y.negative <;> simp <;> field_simp
  rw [hdiv, ← hratio]
  exact ofRatio_isNearest _ _ hpos

/-- A positive finite number does not divide a number of one or more down to zero. -/
theorem div_isPositive (hx : x.isFinite = true) (hy : y.isFinite = true) (hone : 1 ≤ x.toRat)
    (hpos : 0 < y.toRat) : (x.div y).isPositive = true := by
  have hunit : (0 : ℚ) < f.unit := by exact_mod_cast f.unit_pos
  obtain ⟨hzero, -⟩ := toRat_pos_iff.1 hpos
  have hroom : y.toRat ≤ f.unit := by
    have hsquare : f.quantaOf f.infinityCode ≤ f.unit * f.unit := by cases f <;> decide +kernel
    have hlt := natAbs_quanta_lt hy
    have hquanta : y.quanta ≤ f.unit * f.unit := by
      have hle : (f.quantaOf f.infinityCode : Int) ≤ f.unit * f.unit := by exact_mod_cast hsquare
      omega
    rw [toRat, div_le_iff₀ hunit]
    exact_mod_cast hquanta
  refine (div_isNearest hx hy hzero).isPositive_of_le least_isFinite ?_ ?_
  · rw [least_toRat]
    positivity
  · rw [least_toRat]
    exact div_le_div₀ (by linarith) hone hpos hroom

theorem zero_div (hy : y.isFinite = true) (hpos : 0 < y.toRat) : zero.div y = zero := by
  obtain ⟨hzero, hsign⟩ := toRat_pos_iff.1 hpos
  have hcode : f.codeNear 0 y.magnitude = 0 := f.codeNear_zero (magnitude_pos hy hzero)
  have hnone : (zero : Binary f).magnitude = 0 := by
    rw [magnitude_eq_zero_iff zero_isFinite]
    rfl
  simp only [div, isNaN_of_isFinite zero_isFinite, isNaN_of_isFinite hy,
    isInfinite_of_isFinite zero_isFinite, isInfinite_of_isFinite hy, hzero, hsign, hnone,
    Bool.false_eq_true, ↓reduceIte, ofRatio, Nat.zero_mul, hcode]
  rfl

end Binary

end Tabular
