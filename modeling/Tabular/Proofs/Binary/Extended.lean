import Mathlib.Data.EReal.Basic
import Tabular.Proofs.Binary.Nearest

namespace Tabular

theorem coe_intCast (n : Int) : ((n : ℝ) : EReal) = (((n : ℚ) : ℝ) : EReal) := by
  rw [Rat.cast_intCast]

theorem compare_eq_cmp {m n : Int} {r s : EReal} (hlt : r < s ↔ m < n) (hgt : s < r ↔ n < m) :
    compare m n = cmp r s := by
  rcases lt_trichotomy m n with h | h | h
  · rw [compare_lt_iff_lt.2 h, (hlt.2 h).cmp_eq_lt]
  · have heq : r = s := by
      apply le_antisymm
      · rw [← not_lt, hgt, h]
        exact lt_irrefl n
      · rw [← not_lt, hlt, h]
        exact lt_irrefl n
    rw [compare_eq_iff_eq.2 h, heq.cmp_eq_eq]
  · rw [compare_gt_iff_gt.2 h, (hgt.2 h).cmp_eq_gt]

namespace Format

variable {f : Format} {q p : Int} {r s : EReal}

/-- So many quanta make up an extended real number, an infinity being as far as its code says. -/
inductive Counts (f : Format) : Int → EReal → Prop where
  | finite {q : Int} (h : q.natAbs < f.quantaOf f.infinityCode) :
      Counts f q (((q / f.unit : ℚ) : ℝ) : EReal)
  | bot : Counts f (-(f.quantaOf f.infinityCode : Int)) ⊥
  | top : Counts f (f.quantaOf f.infinityCode) ⊤

theorem Counts.lt_iff (hr : f.Counts q r) (hs : f.Counts p s) : r < s ↔ q < p := by
  have hpos := f.quantaOf_strictMono f.infinityCode_pos
  have hunit : (0 : ℚ) < f.unit := by exact_mod_cast f.unit_pos
  rw [f.quantaOf_zero] at hpos
  cases hr with
  | finite hq =>
    cases hs with
    | finite hp =>
      rw [EReal.coe_lt_coe_iff, Rat.cast_lt, div_lt_div_iff_of_pos_right hunit, Int.cast_lt]
    | bot => exact iff_of_false not_lt_bot (by omega)
    | top => exact iff_of_true (EReal.coe_lt_top _) (by omega)
  | bot =>
    cases hs with
    | finite hp => exact iff_of_true (EReal.bot_lt_coe _) (by omega)
    | bot => exact iff_of_false not_lt_bot (by omega)
    | top => exact iff_of_true bot_lt_top (by omega)
  | top =>
    cases hs with
    | finite hp => exact iff_of_false not_top_lt (by omega)
    | bot => exact iff_of_false not_lt_bot (by omega)
    | top => exact iff_of_false not_top_lt (by omega)

end Format

namespace Binary

variable {f : Format} {x y : Binary f} {r s : EReal}

/-- The extended real number that a number stands for; a NaN stands for none. -/
noncomputable def extended? (x : Binary f) : Option EReal :=
  if x.isNaN then none
  else if x.isInfinite then some (if x.negative then ⊥ else ⊤)
  else some ((x.toRat : ℝ) : EReal)

theorem extended?_of_isNaN (h : x.isNaN = true) : x.extended? = none := by
  rw [extended?, if_pos h]

theorem extended?_of_isFinite (h : x.isFinite = true) :
    x.extended? = some ((x.toRat : ℝ) : EReal) := by
  have hnan := isNaN_of_isFinite h
  have hinfinite := isInfinite_of_isFinite h
  simp only [extended?, hnan, hinfinite, Bool.false_eq_true, ↓reduceIte]

theorem extended?_infinity (negative : Bool) :
    (infinity negative : Binary f).extended? = some (if negative then ⊥ else ⊤) := by
  have hnan := infinity_isNaN (f := f) negative
  have hinfinite : (infinity negative : Binary f).isInfinite = true := beq_self_eq_true _
  simp only [extended?, hnan, hinfinite, Bool.false_eq_true, ↓reduceIte]
  rfl

theorem exists_extended? (h : x.isNaN = false) : ∃ r, x.extended? = some r := by
  by_cases hi : x.isInfinite = true
  · rw [eq_infinity hi]
    exact ⟨_, extended?_infinity _⟩
  · exact ⟨_, extended?_of_isFinite ((isFinite_iff h).2 hi)⟩

theorem isNaN_of_extended? (h : x.extended? = some r) : x.isNaN = false := by
  cases hn : x.isNaN with
  | false => rfl
  | true =>
    rw [extended?_of_isNaN hn] at h
    cases h

theorem extended?_cases (h : x.extended? = some r) :
    x.isFinite = true ∧ r = ((x.toRat : ℝ) : EReal) ∨
      x = infinity true ∧ r = ⊥ ∨ x = infinity false ∧ r = ⊤ := by
  by_cases hi : x.isInfinite = true
  · right
    have heq := eq_infinity hi
    rw [heq, extended?_infinity, Option.some.injEq] at h
    cases hn : x.negative with
    | true =>
      rw [hn] at heq h
      exact .inl ⟨heq, h.symm⟩
    | false =>
      rw [hn] at heq h
      exact .inr ⟨heq, h.symm⟩
  · have hfinite := (isFinite_iff (isNaN_of_extended? h)).2 hi
    rw [extended?_of_isFinite hfinite, Option.some.injEq] at h
    exact .inl ⟨hfinite, h.symm⟩

theorem quanta_lt_iff (x y : Binary f) : x.quanta < y.quanta ↔ x.orderKey < y.orderKey := by
  have hlt := f.quantaOf_strictMono.lt_iff_lt (a := x.code) (b := y.code)
  have hgt := f.quantaOf_strictMono.lt_iff_lt (a := y.code) (b := x.code)
  have hx := f.quantaOf_strictMono.lt_iff_lt (a := 0) (b := x.code)
  have hy := f.quantaOf_strictMono.lt_iff_lt (a := 0) (b := y.code)
  rw [f.quantaOf_zero] at hx hy
  rw [quanta, quanta, orderKey, orderKey, magnitude, magnitude]
  cases x.negative <;> cases y.negative <;>
    simp only [Bool.false_eq_true, ↓reduceIte] <;> omega

theorem natAbs_quanta_lt (h : x.isFinite = true) :
    x.quanta.natAbs < f.quantaOf f.infinityCode := by
  rw [quanta_natAbs]
  exact f.quantaOf_strictMono (of_decide_eq_true h)

theorem toRat_lt_iff : x.toRat < y.toRat ↔ x.quanta < y.quanta := by
  have hunit : (0 : ℚ) < f.unit := by exact_mod_cast f.unit_pos
  rw [toRat, toRat, div_lt_div_iff_of_pos_right hunit, Int.cast_lt]

theorem extended?_counts (h : x.extended? = some r) : f.Counts x.quanta r := by
  rcases extended?_cases h with ⟨hfinite, rfl⟩ | ⟨rfl, rfl⟩ | ⟨rfl, rfl⟩
  · exact .finite (natAbs_quanta_lt hfinite)
  · exact .bot
  · exact .top

theorem extended?_lt_iff (hx : x.extended? = some r) (hy : y.extended? = some s) :
    r < s ↔ x.quanta < y.quanta :=
  (extended?_counts hx).lt_iff (extended?_counts hy)

theorem zero_extended? : (zero : Binary f).extended? = some 0 := by
  rw [extended?_of_isFinite zero_isFinite, toRat, quanta_zero, Int.cast_zero, zero_div,
    Rat.cast_zero, EReal.coe_zero]

theorem extended?_pos_iff (h : x.extended? = some r) : 0 < r ↔ 0 < x.orderKey :=
  (extended?_lt_iff zero_extended? h).trans (quanta_lt_iff zero x)

theorem extended?_neg_iff (h : x.extended? = some r) : r < 0 ↔ x.orderKey < 0 :=
  (extended?_lt_iff h zero_extended?).trans (quanta_lt_iff x zero)

theorem isZero_iff (h : x.extended? = some r) : x.isZero = true ↔ r = 0 := by
  have hpos := extended?_pos_iff h
  have hneg := extended?_neg_iff h
  have hkey : x.isZero = true ↔ x.orderKey = 0 := by
    rw [isZero, orderKey, beq_iff_eq]
    split <;> omega
  rw [hkey]
  constructor
  · intro hzero
    exact le_antisymm (not_lt.1 fun hr => (hpos.1 hr).ne' hzero)
      (not_lt.1 fun hr => (hneg.1 hr).ne hzero)
  · rintro rfl
    have := mt hpos.2 (lt_irrefl 0)
    have := mt hneg.2 (lt_irrefl 0)
    omega

theorem isPositive_iff (h : x.extended? = some r) : x.isPositive = true ↔ 0 < r := by
  have hnan := isNaN_of_extended? h
  rw [extended?_pos_iff h, isPositive, hnan, isZero, orderKey]
  cases x.negative with
  | true =>
    refine iff_of_false ?_ (by simp)
    rw [Bool.not_true, Bool.and_false]
    exact Bool.false_ne_true
  | false => simp [Nat.pos_iff_ne_zero]

theorem add_zero_extended? (h : x.isNaN = false) : (x.add zero).extended? = x.extended? := by
  rw [add_zero h]
  split
  · next hzero =>
    obtain ⟨r, hr⟩ := exists_extended? h
    rw [zero_extended?, hr, (isZero_iff hr).1 hzero]
  · rfl

/-- Numbers compare like the extended real numbers that they stand for. -/
theorem compare?_eq_cmp (hx : x.extended? = some r) (hy : y.extended? = some s) :
    x.compare? y = some (cmp r s) := by
  have hlt := (extended?_lt_iff hx hy).trans (quanta_lt_iff x y)
  have hgt := (extended?_lt_iff hy hx).trans (quanta_lt_iff y x)
  have hnan : (x.isNaN || y.isNaN) = false := by
    rw [isNaN_of_extended? hx, isNaN_of_extended? hy, Bool.or_self]
  rw [compare?, hnan, if_neg Bool.false_ne_true, compare_eq_cmp hlt hgt]

theorem lt_iff (hx : x.extended? = some r) (hy : y.extended? = some s) :
    x.lt y = true ↔ r < s := by
  rw [lt, compare?_eq_cmp hx hy, beq_iff_eq, Option.some.injEq, cmp_eq_lt_iff]

theorem le_iff (hx : x.extended? = some r) (hy : y.extended? = some s) :
    x.le y = true ↔ r ≤ s := by
  have heq : (x == y) = true ↔ r = s := by
    change (x.compare? y == some .eq) = true ↔ r = s
    rw [compare?_eq_cmp hx hy, beq_iff_eq, Option.some.injEq, cmp_eq_eq_iff]
  rw [le, Bool.or_eq_true, lt_iff hx hy, heq, le_iff_lt_or_eq]

theorem exists_code_of_single {x : Single} (h : x.isFinite = true) :
    ∃ code, Format.quantaOf .binary64 code * Format.unit .binary32 =
        x.magnitude * Format.unit .binary64 ∧ code < Format.infinityCode .binary64 := by
  obtain ⟨k, hunit, hroom⟩ : ∃ k, Format.unit .binary64 = 2 ^ k * Format.unit .binary32 ∧
      Format.quantaOf .binary32 (Format.infinityCode .binary32) * 2 ^ k <
        Format.quantaOf .binary64 (Format.infinityCode .binary64) :=
    ⟨925, by decide +kernel, by decide +kernel⟩
  obtain ⟨shift, significand, hcode, hlt⟩ := Format.exists_splits (f := .binary32) x.code
  have hwide : significand < 2 ^ (Format.fractionWidth .binary64 + 1) :=
    Nat.lt_trans hlt (by decide)
  obtain ⟨code, hquanta⟩ := Format.exists_quantaOf_eq .binary64 hwide (shift + k)
  have hscaled : Format.quantaOf .binary64 code = x.magnitude * 2 ^ k := by
    rw [hquanta, magnitude, hcode.quantaOf, Nat.pow_add, Nat.mul_assoc]
  refine ⟨code, ?_, ?_⟩
  · rw [hscaled, hunit, Nat.mul_assoc]
  · have hmagnitude : x.magnitude < Format.quantaOf .binary32 (Format.infinityCode .binary32) :=
      Format.quantaOf_strictMono .binary32 (of_decide_eq_true h)
    rw [← (Format.quantaOf_strictMono .binary64).lt_iff_lt, hscaled]
    exact Nat.lt_trans (Nat.mul_lt_mul_of_pos_right hmagnitude (Nat.two_pow_pos k)) hroom

theorem convert_isNaN_of_isNaN {x : Single} (h : x.isNaN = true) :
    (x.convert : Double).isNaN = true := by
  rw [convert, if_pos h]
  apply decide_eq_true
  exact Nat.lt_of_lt_of_le (by decide) Nat.right_le_or

theorem convert_extended? (x : Single) : (x.convert : Double).extended? = x.extended? := by
  cases hn : x.isNaN with
  | true => rw [extended?_of_isNaN hn, extended?_of_isNaN (convert_isNaN_of_isNaN hn)]
  | false =>
    have hnot : ¬x.isNaN = true := by rw [hn]; exact Bool.false_ne_true
    by_cases hi : x.isInfinite = true
    · rw [convert, if_neg hnot, if_pos hi, eq_infinity hi, extended?_infinity, extended?_infinity]
      rfl
    · have hfinite := (isFinite_iff hn).2 hi
      obtain ⟨code, hcode, hlt⟩ := exists_code_of_single hfinite
      have hunit : (Format.unit .binary32 : ℚ) ≠ 0 := by
        exact_mod_cast (Format.unit_pos .binary32).ne'
      have hunit' : (Format.unit .binary64 : ℚ) ≠ 0 := by
        exact_mod_cast (Format.unit_pos .binary64).ne'
      have hquotient : (Format.quantaOf .binary64 code : ℚ) * Format.unit .binary32 =
          x.magnitude * Format.unit .binary64 := by
        exact_mod_cast hcode
      obtain ⟨hexact, hmagnitude⟩ := ofRatio_of_quantaOf x.negative
        (Format.unit_pos .binary32) hcode hlt
      rw [convert, if_neg hnot, if_neg hi, extended?_of_isFinite hexact,
        extended?_of_isFinite hfinite, toRat_eq, toRat_eq x, hmagnitude,
        (div_eq_div_iff hunit' hunit).2 hquotient]
      rfl

theorem convert_isNaN (x : Single) : (x.convert : Double).isNaN = x.isNaN := by
  cases hn : x.isNaN with
  | true => exact convert_isNaN_of_isNaN hn
  | false =>
    obtain ⟨r, hr⟩ := exists_extended? hn
    rw [← convert_extended?] at hr
    exact isNaN_of_extended? hr

theorem convert_negative {g : Format} (x : Binary f) :
    (x.convert : Binary g).negative = x.negative := by
  rw [convert]
  split
  · rfl
  · split <;> rfl

theorem truncate_bounds (x : Binary f) :
    (x.truncate - 1 : ℚ) < x.toRat ∧ x.toRat < x.truncate + 1 := by
  have hunit : (0 : ℚ) < f.unit := by exact_mod_cast f.unit_pos
  have hlow : ((x.magnitude / f.unit : Nat) : ℚ) ≤ x.magnitude / f.unit := by
    rw [le_div_iff₀ hunit]
    exact_mod_cast Nat.div_mul_le_self x.magnitude f.unit
  have hhigh : (x.magnitude / f.unit : ℚ) < (x.magnitude / f.unit : Nat) + 1 := by
    rw [div_lt_iff₀ hunit]
    exact_mod_cast (Nat.div_lt_iff_lt_mul f.unit_pos).1 (Nat.lt_succ_self (x.magnitude / f.unit))
  rw [toRat_eq, truncate]
  cases x.negative with
  | true =>
    simp only [↓reduceIte, Int.cast_neg, Int.cast_natCast]
    constructor <;> linarith
  | false =>
    simp only [Bool.false_eq_true, ↓reduceIte, Int.cast_natCast]
    constructor <;> linarith

theorem ofInt_toRat {n : Int} {code : Nat} (h : f.quantaOf code = n.natAbs * f.unit)
    (hcode : code < f.infinityCode) :
    (ofInt n : Binary f).isFinite = true ∧ (ofInt n : Binary f).toRat = n := by
  have hunit : (f.unit : ℚ) ≠ 0 := by exact_mod_cast f.unit_pos.ne'
  obtain ⟨hfinite, hmagnitude⟩ := ofInt_magnitude h hcode
  refine ⟨hfinite, ?_⟩
  rw [toRat_eq, hmagnitude, Nat.cast_mul, mul_div_cancel_right₀ _ hunit, Nat.cast_natAbs]
  by_cases hneg : n < 0
  · have hsign : (ofInt n : Binary f).negative = true := decide_eq_true hneg
    rw [hsign, if_pos rfl, abs_of_neg hneg, Int.cast_neg, neg_mul_neg, one_mul]
  · have hsign : (ofInt n : Binary f).negative = false := decide_eq_false hneg
    rw [hsign, if_neg Bool.false_ne_true, abs_of_nonneg (Int.not_lt.1 hneg), one_mul]

theorem ofInt_extended? {n : Int} {code : Nat} (h : f.quantaOf code = n.natAbs * f.unit)
    (hcode : code < f.infinityCode) :
    (ofInt n : Binary f).extended? = some ((n : ℝ) : EReal) := by
  obtain ⟨hfinite, hvalue⟩ := ofInt_toRat h hcode
  rw [extended?_of_isFinite hfinite, hvalue, Rat.cast_intCast]

theorem ofInt_toRat_of_lt {n : Int} (h : n.natAbs < 2 ^ (f.fractionWidth + 1)) :
    (ofInt n : Binary f).isFinite = true ∧ (ofInt n : Binary f).toRat = n := by
  obtain ⟨code, hcode, hlt⟩ := exists_code_of_lt h
  exact ofInt_toRat hcode hlt

theorem ofInt_extended?_of_lt {n : Int} (h : n.natAbs < 2 ^ (f.fractionWidth + 1)) :
    (ofInt n : Binary f).extended? = some ((n : ℝ) : EReal) := by
  obtain ⟨code, hcode, hlt⟩ := exists_code_of_lt h
  exact ofInt_extended? hcode hlt

theorem truncate_eq_tdiv (x : Binary f) : x.truncate = x.quanta.tdiv f.unit := by
  rw [truncate, quanta]
  cases x.negative with
  | true =>
    rw [if_pos rfl, if_pos rfl, Int.neg_tdiv]
    rfl
  | false => rfl

theorem truncate_natAbs (x : Binary f) : x.truncate.natAbs = x.magnitude / f.unit := by
  rw [truncate_eq_tdiv, Int.natAbs_tdiv, quanta_natAbs, Int.natAbs_natCast]
  rfl

/-- The whole part of a number is a number: beyond the significant bits there is no other part. -/
theorem ofInt_truncate (h : x.isFinite = true) :
    (ofInt x.truncate : Binary f).extended? = some ((x.truncate : ℝ) : EReal) := by
  by_cases hfew : x.magnitude / f.unit < 2 ^ (f.fractionWidth + 1)
  · rw [← truncate_natAbs] at hfew
    exact ofInt_extended?_of_lt hfew
  · obtain ⟨shift, significand, hcode, hlt⟩ := f.exists_splits x.code
    have hmagnitude : x.magnitude = significand * 2 ^ shift := hcode.quantaOf
    have hdvd : f.unit ∣ x.magnitude := by
      have hle : f.quantumExponent ≤ shift := by
        by_contra hshift
        apply hfew
        rw [Nat.div_lt_iff_lt_mul f.unit_pos, hmagnitude]
        apply Nat.mul_lt_mul_of_lt_of_le hlt _ f.unit_pos
        exact Nat.pow_le_pow_right Nat.two_pos (by omega)
      rw [hmagnitude]
      exact Nat.dvd_mul_left_of_dvd (Nat.pow_dvd_pow 2 hle) significand
    have hquanta : f.quantaOf x.code = x.truncate.natAbs * f.unit := by
      rw [truncate_natAbs, Nat.div_mul_cancel hdvd, magnitude]
    exact ofInt_extended? hquanta (of_decide_eq_true h)

end Binary

end Tabular
