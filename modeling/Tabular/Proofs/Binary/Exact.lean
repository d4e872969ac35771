import Mathlib.Algebra.Ring.Nat
import Tabular.Binary.Arithmetic
import Tabular.Binary.Order

namespace Tabular

theorem roundEven_mul (q : Nat) {d : Nat} (hd : 0 < d) : roundEven (q * d) d = q := by
  have hlt : compare (2 * (q * d % d)) d = .lt := by
    rw [Nat.mul_mod_left, Nat.compare_eq_lt]
    omega
  rw [roundEven, hlt, Nat.mul_div_cancel q hd]

theorem log2_scaled {m w : Nat} (hlow : 2 ^ w ≤ m) (hhigh : m < 2 ^ (w + 1)) (k : Nat) :
    (m * 2 ^ k).log2 = w + k := by
  have hpos : 0 < m * 2 ^ k :=
    Nat.mul_pos (Nat.lt_of_lt_of_le (Nat.two_pow_pos w) hlow) (Nat.two_pow_pos k)
  rw [Nat.log2_eq_iff (Nat.pos_iff_ne_zero.1 hpos)]
  constructor
  · rw [Nat.pow_add]
    exact Nat.mul_le_mul_right _ hlow
  · rw [show w + k + 1 = w + 1 + k by omega, Nat.pow_add]
    exact Nat.mul_lt_mul_of_pos_right hhigh (Nat.two_pow_pos k)

namespace Format

theorem unit_eq (f : Format) : f.unit = 2 ^ f.quantumExponent := rfl

theorem infinityCode_pos (f : Format) : 0 < f.infinityCode := by
  cases f <;> decide

theorem quantaOf_of_lt (f : Format) {code : Nat} (h : code < 2 ^ f.fractionWidth) :
    f.quantaOf code = code := by
  simp only [quantaOf, Nat.pow_eq, Nat.div_eq_of_lt h, Nat.mod_eq_of_lt h, ↓reduceIte]

theorem quantaOf_normal (f : Format) {fraction : Nat} (h : fraction < 2 ^ f.fractionWidth)
    (k : Nat) : f.quantaOf ((k + 1) * 2 ^ f.fractionWidth + fraction) =
      (2 ^ f.fractionWidth + fraction) * 2 ^ k := by
  have hexponent : ((k + 1) * 2 ^ f.fractionWidth + fraction) / 2 ^ f.fractionWidth = k + 1 := by
    rw [Nat.mul_comm, Nat.mul_add_div (Nat.two_pow_pos _), Nat.div_eq_of_lt h, Nat.add_zero]
  have hfraction :
      ((k + 1) * 2 ^ f.fractionWidth + fraction) % 2 ^ f.fractionWidth = fraction := by
    rw [Nat.mul_comm, Nat.mul_add_mod, Nat.mod_eq_of_lt h]
  simp only [quantaOf, Nat.pow_eq, hexponent, hfraction, Nat.succ_ne_zero, ↓reduceIte,
    Nat.add_sub_cancel]

theorem codeNear_of_lt (f : Format) {n : Nat} (h : n < 2 ^ f.fractionWidth) :
    f.codeNear n 1 = min f.infinityCode n := by
  have hshift : n.log2 - f.fractionWidth = 0 := by
    rcases Nat.eq_zero_or_pos n with hn | hn
    · rw [hn, Nat.log2_zero, Nat.zero_sub]
    · have hlog := (Nat.log2_lt (Nat.pos_iff_ne_zero.1 hn)).2 h
      omega
  have hround := roundEven_mul n Nat.one_pos
  rw [Nat.mul_one] at hround
  simp only [codeNear, Nat.pow_eq, Nat.div_one, hshift, Nat.zero_mul, Nat.pow_zero, Nat.mul_one,
    hround, Nat.zero_add]

theorem codeNear_normal (f : Format) {fraction : Nat} (h : fraction < 2 ^ f.fractionWidth)
    (k : Nat) : f.codeNear ((2 ^ f.fractionWidth + fraction) * 2 ^ k) 1 =
      min f.infinityCode ((k + 1) * 2 ^ f.fractionWidth + fraction) := by
  have hlog : ((2 ^ f.fractionWidth + fraction) * 2 ^ k).log2 = f.fractionWidth + k := by
    apply log2_scaled (Nat.le_add_right _ _)
    rw [Nat.pow_succ]
    omega
  simp only [codeNear, Nat.pow_eq, Nat.div_one, hlog, Nat.add_sub_cancel_left, Nat.one_mul,
    roundEven_mul _ (Nat.two_pow_pos k)]
  congr 1
  rw [Nat.succ_mul]
  omega

theorem codeNear_quantaOf_eq_min (f : Format) (code : Nat) :
    f.codeNear (f.quantaOf code) 1 = min f.infinityCode code := by
  have hsplit := Nat.div_add_mod' code (2 ^ f.fractionWidth)
  have hfraction := Nat.mod_lt code (Nat.two_pow_pos f.fractionWidth)
  cases he : code / 2 ^ f.fractionWidth with
  | zero =>
    have hlt : code < 2 ^ f.fractionWidth := by rw [he] at hsplit; omega
    rw [f.quantaOf_of_lt hlt, f.codeNear_of_lt hlt]
  | succ k =>
    rw [he] at hsplit
    have hnormal := f.codeNear_normal hfraction k
    rw [← f.quantaOf_normal hfraction k, hsplit] at hnormal
    exact hnormal

theorem codeNear_quantaOf (f : Format) {code : Nat} (hc : code < f.infinityCode) :
    f.codeNear (f.quantaOf code) 1 = code := by
  rw [f.codeNear_quantaOf_eq_min, Nat.min_eq_right (Nat.le_of_lt hc)]

theorem quantaOf_eq_zero_iff (f : Format) {code : Nat} (hc : code < f.infinityCode) :
    f.quantaOf code = 0 ↔ code = 0 := by
  have hzero : f.quantaOf 0 = 0 := f.quantaOf_of_lt (Nat.two_pow_pos _)
  constructor
  · intro h
    have hnear := f.codeNear_quantaOf hc
    rw [h, ← hzero, f.codeNear_quantaOf f.infinityCode_pos] at hnear
    exact hnear.symm
  · intro h
    rw [h, hzero]

end Format

namespace Binary

variable {f : Format}

theorem isFinite_of_not {x : Binary f} (hn : x.isNaN = false) (hi : x.isInfinite = false) :
    x.isFinite = true := by
  simp only [isNaN, isInfinite, isFinite, decide_eq_false_iff_not, decide_eq_true_eq,
    beq_eq_false_iff_ne] at *
  omega

theorem isNaN_of_isFinite {x : Binary f} (h : x.isFinite = true) : x.isNaN = false := by
  simp only [isNaN, isFinite, decide_eq_false_iff_not, decide_eq_true_eq] at *
  omega

theorem isInfinite_of_isFinite {x : Binary f} (h : x.isFinite = true) : x.isInfinite = false := by
  simp only [isInfinite, isFinite, decide_eq_true_eq, beq_eq_false_iff_ne] at *
  omega

theorem ofRatio_isNaN (negative : Bool) (n d : Nat) :
    (ofRatio negative n d : Binary f).isNaN = false :=
  decide_eq_false (Nat.not_lt.2 (f.codeNear_le n d))

theorem infinity_isNaN (negative : Bool) : (infinity negative : Binary f).isNaN = false :=
  decide_eq_false (Nat.lt_irrefl _)

theorem infinity_isFinite (negative : Bool) : (infinity negative : Binary f).isFinite = false :=
  decide_eq_false (Nat.lt_irrefl _)

theorem eq_of_code {x y : Binary f} (hsign : x.negative = y.negative) (hcode : x.code = y.code) :
    x = y := by
  obtain ⟨sx, cx, hcx⟩ := x
  obtain ⟨sy, cy, hcy⟩ := y
  rw [mk.injEq]
  exact ⟨hsign, hcode⟩

theorem eq_infinity {x : Binary f} (h : x.isInfinite = true) : x = infinity x.negative := by
  obtain ⟨negative, code, hcode⟩ := x
  simp only [isInfinite, beq_iff_eq] at h
  simp only [infinity, h]

theorem zero_isFinite : (zero : Binary f).isFinite = true :=
  decide_eq_true f.infinityCode_pos

theorem isZero_of_isInfinite {x : Binary f} (h : x.isInfinite = true) : x.isZero = false := by
  have hpos := f.infinityCode_pos
  simp only [isInfinite, isZero, beq_iff_eq, beq_eq_false_iff_ne] at *
  omega

theorem ofRatio_magnitude {x : Binary f} (h : x.isFinite = true) :
    ofRatio x.negative x.magnitude 1 = x := by
  have hcode := f.codeNear_quantaOf (of_decide_eq_true h)
  simp only [ofRatio, magnitude, hcode]

theorem quanta_natAbs (x : Binary f) : x.quanta.natAbs = x.magnitude := by
  rw [quanta]
  split <;> simp

theorem magnitude_eq_zero_iff {x : Binary f} (h : x.isFinite = true) :
    x.magnitude = 0 ↔ x.isZero = true := by
  rw [magnitude, f.quantaOf_eq_zero_iff (of_decide_eq_true h), isZero, beq_iff_eq]

theorem quanta_neg_iff {x : Binary f} (h : x.magnitude ≠ 0) :
    decide (x.quanta < 0) = x.negative := by
  rw [quanta]
  cases x.negative with
  | true => simp only [↓reduceIte, decide_eq_true_eq]; omega
  | false => simp only [Bool.false_eq_true, ↓reduceIte, decide_eq_false_iff_not]; omega

theorem quanta_zero : (zero : Binary f).quanta = 0 := by
  have h : (zero : Binary f).magnitude = 0 :=
    (magnitude_eq_zero_iff zero_isFinite).2 rfl
  have hq := quanta_natAbs (zero : Binary f)
  omega

theorem add_zero_of_isNaN {x : Binary f} (h : x.isNaN = true) : x.add zero = x.quiet := by
  rw [add, if_pos h]

/-- Adding zero gives the number back, except that both zeros give the positive one. -/
theorem add_zero {x : Binary f} (h : x.isNaN = false) :
    x.add zero = if x.isZero then zero else x := by
  have hz := zero_isFinite (f := f)
  simp only [add, h, isNaN_of_isFinite hz, isInfinite_of_isFinite hz, Bool.false_eq_true,
    Bool.false_and, ↓reduceIte]
  cases hi : x.isInfinite with
  | true => simp only [isZero_of_isInfinite hi, Bool.false_eq_true, ↓reduceIte]
  | false =>
    have hfinite := isFinite_of_not h hi
    simp only [Bool.false_eq_true, ↓reduceIte, quanta_zero, Int.add_zero, ofQuanta,
      quanta_natAbs]
    have hmag := magnitude_eq_zero_iff hfinite
    cases hx : x.isZero with
    | true =>
      have hcode : f.codeNear 0 1 = 0 := by
        rw [f.codeNear_of_lt (Nat.two_pow_pos _), Nat.min_zero]
      have hq : x.quanta = 0 := by
        have := quanta_natAbs x
        rw [hmag.2 hx] at this
        omega
      simp only [hq, ↓reduceIte, zero, Bool.and_false, hmag.2 hx, ofRatio, hcode]
    | false =>
      have hne : x.magnitude ≠ 0 := fun h0 => by rw [hmag.1 h0] at hx; cases hx
      have hq : x.quanta ≠ 0 := by
        have := quanta_natAbs x
        omega
      simp only [hq, ↓reduceIte, Bool.false_eq_true, quanta_neg_iff hne,
        ofRatio_magnitude hfinite]

theorem mul_self_isNaN {x : Binary f} (h : x.isNaN = false) : (x.mul x).isNaN = false := by
  simp only [mul, h, Bool.false_eq_true, ↓reduceIte, Bool.or_self]
  split
  · next hi =>
    simp only [isZero_of_isInfinite hi, Bool.false_eq_true, ↓reduceIte]
    exact infinity_isNaN _
  · exact ofRatio_isNaN _ _ _

theorem isFinite_of_mul_self {x : Binary f} (h : x.isNaN = false)
    (hs : (x.mul x).isFinite = true) : x.isFinite = true := by
  cases hi : x.isInfinite with
  | true =>
    simp only [mul, h, hi, isZero_of_isInfinite hi, Bool.false_eq_true, ↓reduceIte,
      Bool.or_self, isFinite, infinity, Nat.lt_irrefl, decide_false] at hs
  | false => exact isFinite_of_not h hi

theorem mulAdd_self_isNaN {x y : Binary f} (hx : x.isFinite = true) (hy : y.isFinite = true) :
    (x.mulAdd x y.neg).isNaN = false := by
  have hneg : y.neg.isFinite = true := hy
  simp only [mulAdd, hx, hneg, Bool.and_self, ↓reduceIte]
  exact ofRatio_isNaN _ _ _

/-- Numbers other than NaN and the negative zero: no two of them are numerically equal. -/
def IsCanonical (x : Binary f) : Prop :=
  x.isNaN = false ∧ (x.isZero = true → x.negative = false)

theorem isCanonical_add_zero {x : Binary f} (h : x.isNaN = false) :
    (x.add zero).IsCanonical := by
  rw [add_zero h]
  cases hz : x.isZero with
  | true => exact ⟨isNaN_of_isFinite zero_isFinite, fun _ => rfl⟩
  | false =>
    refine ⟨h, fun h0 => ?_⟩
    simp only [Bool.false_eq_true, ↓reduceIte, hz] at h0

theorem IsCanonical.eq_of_orderKey {x y : Binary f} (hx : x.IsCanonical) (hy : y.IsCanonical)
    (h : x.orderKey = y.orderKey) : x = y := by
  obtain ⟨sx, cx, hcx⟩ := x
  obtain ⟨sy, cy, hcy⟩ := y
  have hzx := hx.2
  have hzy := hy.2
  simp only [isZero, beq_iff_eq, orderKey] at hzx hzy h
  rw [mk.injEq]
  cases sx <;> cases sy <;> simp at * <;> omega

theorem compare?_eq_none_iff {x y : Binary f} :
    x.compare? y = none ↔ x.isNaN = true ∨ y.isNaN = true := by
  rw [compare?, ← Bool.or_eq_true]
  split
  · next hnan => simp [hnan]
  · next hnan => simp [hnan]

theorem beq_iff {x y : Binary f} :
    (x == y) = true ↔ x.isNaN = false ∧ y.isNaN = false ∧ x.orderKey = y.orderKey := by
  change (x.compare? y == some .eq) = true ↔ _
  cases hx : x.isNaN <;> cases hy : y.isNaN <;> simp [compare?, hx, hy]

theorem beq_comm (x y : Binary f) : (x == y) = (y == x) := by
  rw [Bool.eq_iff_iff, beq_iff, beq_iff, eq_comm (a := x.orderKey)]
  exact and_left_comm

theorem orderKey_add_zero {x : Binary f} (h : x.isNaN = false) :
    (x.add zero).orderKey = x.orderKey := by
  rw [add_zero h]
  split
  · next hzero =>
    have hcode : x.code = 0 := beq_iff_eq.1 hzero
    simp [orderKey, zero, hcode]
  · rfl

theorem quiet_isNaN {x : Binary f} (h : x.isNaN = true) : x.quiet.isNaN = true := by
  rw [isNaN, decide_eq_true_iff] at *
  exact Nat.lt_of_lt_of_le h Nat.left_le_or

/-- Without the sign of zero, two numbers are the same if they are numerically equal, or if they are
the same NaN up to the quiet bit. -/
theorem add_zero_inj {x y : Binary f} : x.add zero = y.add zero ↔
    (x == y) = true ∨ x.isNaN = true ∧ y.isNaN = true ∧ x.quiet = y.quiet := by
  rw [beq_iff]
  cases hx : x.isNaN with
  | true =>
    rw [add_zero_of_isNaN hx]
    cases hy : y.isNaN with
    | true => simp [add_zero_of_isNaN hy]
    | false =>
      have hne : x.quiet ≠ y.add zero := by
        intro heq
        have hnan := quiet_isNaN hx
        rw [heq, (isCanonical_add_zero hy).1] at hnan
        cases hnan
      simp [hne]
  | false =>
    cases hy : y.isNaN with
    | true =>
      have hne : x.add zero ≠ y.quiet := by
        intro heq
        have hnan := quiet_isNaN hy
        rw [← heq, (isCanonical_add_zero hx).1] at hnan
        cases hnan
      simp [add_zero_of_isNaN hy, hne]
    | false =>
      have hiff : x.add zero = y.add zero ↔ x.orderKey = y.orderKey := by
        constructor
        · intro heq
          rw [← orderKey_add_zero hx, heq, orderKey_add_zero hy]
        · intro heq
          apply (isCanonical_add_zero hx).eq_of_orderKey (isCanonical_add_zero hy)
          rw [orderKey_add_zero hx, heq, orderKey_add_zero hy]
      simp [hiff]

end Binary

end Tabular
