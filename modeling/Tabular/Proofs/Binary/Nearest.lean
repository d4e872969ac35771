import Mathlib.Algebra.Order.Field.Basic
import Mathlib.Data.Rat.Cast.Order
import Mathlib.Tactic.FieldSimp
import Mathlib.Tactic.NormNum
import Tabular.Proofs.Binary.Codes

namespace Tabular

/-- No whole number is nearer to the exact quotient, and of two equally near ones it is the even. -/
theorem RoundsTo.nearest {n d q : Nat} (hd : 0 < d) (h : RoundsTo n d q) {m : Nat} (hm : m ≠ q) :
    |(n / d : ℚ) - q| ≤ |(n / d : ℚ) - m| ∧
      (|(n / d : ℚ) - q| = |(n / d : ℚ) - m| → q % 2 = 0) := by
  have hpos : (0 : ℚ) < d := by exact_mod_cast hd
  generalize hx : (n / d : ℚ) = x
  have hn : (n : ℚ) = x * d := by rw [← hx, div_mul_cancel₀ _ hpos.ne']
  have hlower : (q : ℚ) - x ≤ 1 / 2 := by
    have hle : (2 * (q * d) : ℚ) ≤ 2 * n + d := by exact_mod_cast h.lower
    rw [hn] at hle
    nlinarith
  have hupper : x - q ≤ 1 / 2 := by
    have hle : (2 * n : ℚ) ≤ 2 * (q * d) + d := by exact_mod_cast h.upper
    rw [hn] at hle
    nlinarith
  have hhalf : |x - q| ≤ 1 / 2 := abs_le.2 ⟨by linarith, hupper⟩
  have hapart : (1 : ℚ) ≤ |(m : ℚ) - q| := by
    have hint : (1 : ℤ) ≤ |(m : ℤ) - q| := Int.one_le_abs (by omega)
    exact_mod_cast hint
  have htriangle : |(m : ℚ) - q| ≤ |x - m| + |x - q| := by
    have hadd := abs_add_le ((m : ℚ) - x) (x - q)
    rwa [sub_add_sub_cancel, abs_sub_comm (m : ℚ) x] at hadd
  refine ⟨by linarith, fun htie => ?_⟩
  have heq : |x - q| = 1 / 2 := by linarith
  apply h.even
  rcases abs_choice (x - q) with hsign | hsign
  · right
    have hx' : x = q + 1 / 2 := by linarith
    have hcast : (2 * n : ℚ) = 2 * (q * d) + d := by rw [hn, hx']; ring
    exact_mod_cast hcast
  · left
    have hx' : x = q - 1 / 2 := by linarith
    have hcast : (2 * (q * d) : ℚ) = 2 * n + d := by rw [hn, hx']; ring
    exact_mod_cast hcast

namespace Format

variable (f : Format)

theorem quantaOf_multiple_or_lt (code shift : Nat) :
    (∃ m, f.quantaOf code = m * 2 ^ shift) ∨
      shift ≠ 0 ∧ f.quantaOf code < 2 ^ f.fractionWidth * 2 ^ shift := by
  obtain ⟨own, significand, hcode, hlt⟩ := f.exists_splits code
  rw [hcode.quantaOf]
  by_cases hle : shift ≤ own
  · left
    refine ⟨significand * 2 ^ (own - shift), ?_⟩
    rw [Nat.mul_assoc, ← Nat.pow_add, Nat.sub_add_cancel hle]
  · right
    refine ⟨by omega, ?_⟩
    calc significand * 2 ^ own < 2 ^ (f.fractionWidth + 1) * 2 ^ own :=
          Nat.mul_lt_mul_of_pos_right hlt (Nat.two_pow_pos own)
      _ = 2 ^ f.fractionWidth * 2 ^ (own + 1) := by rw [Nat.pow_succ, Nat.pow_succ]; ring
      _ ≤ 2 ^ f.fractionWidth * 2 ^ shift :=
          Nat.mul_le_mul_left _ (Nat.pow_le_pow_right Nat.two_pos (by omega))

/-- No code has a magnitude nearer to the exact quotient, and of two equally near ones it is the
even. -/
theorem nearCode_nearest (n : Nat) {d : Nat} (hd : 0 < d) {code : Nat}
    (hcode : code ≠ f.nearCode n d) :
    |(n / d : ℚ) - f.quantaOf (f.nearCode n d)| ≤ |(n / d : ℚ) - f.quantaOf code| ∧
      (|(n / d : ℚ) - f.quantaOf (f.nearCode n d)| = |(n / d : ℚ) - f.quantaOf code| →
        f.nearCode n d % 2 = 0) := by
  obtain ⟨shift, q, hsplits, hround, hlow⟩ := f.nearCode_splits n hd
  have hstep : 0 < d * 2 ^ shift := Nat.mul_pos hd (Nat.two_pow_pos shift)
  have hpow : (0 : ℚ) < 2 ^ shift := by positivity
  have hpos : (0 : ℚ) < d := by exact_mod_cast hd
  rw [hsplits.mod_two]
  have hscale : ∀ m : Nat, |(n / d : ℚ) - (m * 2 ^ shift : Nat)| =
      |(n / (d * 2 ^ shift : Nat) : ℚ) - m| * 2 ^ shift := by
    intro m
    rw [← abs_of_pos hpow, ← abs_mul]
    congr 1
    push_cast
    field_simp
  have hmultiple : ∀ m : Nat, m ≠ q →
      |(n / d : ℚ) - f.quantaOf (f.nearCode n d)| ≤ |(n / d : ℚ) - (m * 2 ^ shift : Nat)| ∧
        (|(n / d : ℚ) - f.quantaOf (f.nearCode n d)| = |(n / d : ℚ) - (m * 2 ^ shift : Nat)| →
          q % 2 = 0) := by
    intro m hm
    obtain ⟨hle, heven⟩ := hround.nearest hstep hm
    rw [hsplits.quantaOf, hscale, hscale]
    refine ⟨mul_le_mul_of_nonneg_right hle hpow.le, fun htie => ?_⟩
    exact heven (mul_right_cancel₀ hpow.ne' htie)
  rcases f.quantaOf_multiple_or_lt code shift with ⟨m, hm⟩ | ⟨hshift, hbelow⟩
  · rw [hm]
    apply hmultiple
    intro heq
    apply hcode
    apply f.quantaOf_strictMono.injective
    rw [hm, hsplits.quantaOf, heq]
  · have hleast : ((2 ^ f.fractionWidth * 2 ^ shift : Nat) : ℚ) ≤ n / d := by
      have hle := hlow.resolve_left hshift
      rw [Nat.mul_left_comm, Nat.mul_comm] at hle
      rw [le_div_iff₀ hpos]
      exact_mod_cast hle
    have hlt : (f.quantaOf code : ℚ) < (2 ^ f.fractionWidth * 2 ^ shift : Nat) := by
      exact_mod_cast hbelow
    have hfar : |(n / d : ℚ) - (2 ^ f.fractionWidth * 2 ^ shift : Nat)| <
        |(n / d : ℚ) - f.quantaOf code| := by
      rw [abs_of_nonneg (by linarith), abs_of_nonneg (by linarith)]
      linarith
    have hnear : |(n / d : ℚ) - f.quantaOf (f.nearCode n d)| ≤
        |(n / d : ℚ) - (2 ^ f.fractionWidth * 2 ^ shift : Nat)| := by
      by_cases hq : 2 ^ f.fractionWidth = q
      · rw [hsplits.quantaOf, hq]
      · exact (hmultiple _ hq).1
    exact ⟨by linarith, fun htie => absurd htie (by linarith)⟩

theorem lt_nearCode_iff (n : Nat) {d : Nat} (hd : 0 < d) {code : Nat} (hodd : code % 2 = 1) :
    code < f.nearCode n d ↔
      (f.quantaOf code + f.quantaOf (code + 1) : ℚ) / 2 ≤ n / d := by
  generalize hx : (n / d : ℚ) = x
  have hstep : (f.quantaOf code : ℚ) < f.quantaOf (code + 1) := by
    exact_mod_cast f.quantaOf_strictMono (Nat.lt_succ_self code)
  constructor
  · intro hlt
    obtain ⟨hle, -⟩ := f.nearCode_nearest n hd (Nat.ne_of_lt hlt)
    have hbeyond : (f.quantaOf (code + 1) : ℚ) ≤ f.quantaOf (f.nearCode n d) := by
      exact_mod_cast f.quantaOf_strictMono.monotone hlt
    rw [hx] at hle
    by_contra hhalf
    rw [abs_sub_comm, abs_of_nonneg (by linarith)] at hle
    rcases abs_cases (x - f.quantaOf code) with ⟨habs, -⟩ | ⟨habs, -⟩ <;> linarith
  · intro hhalf
    by_contra hnot
    have hne : code + 1 ≠ f.nearCode n d := by omega
    obtain ⟨hle, heven⟩ := f.nearCode_nearest n hd hne
    have hwithin : (f.quantaOf (f.nearCode n d) : ℚ) ≤ f.quantaOf code := by
      exact_mod_cast f.quantaOf_strictMono.monotone (Nat.le_of_not_lt hnot)
    rw [hx] at hle heven
    rw [abs_of_nonneg (by linarith)] at hle heven
    rcases abs_cases (x - f.quantaOf (code + 1)) with ⟨habs, -⟩ | ⟨habs, -⟩
    · linarith
    · have hsame : (f.quantaOf (f.nearCode n d) : ℚ) = f.quantaOf code := by linarith
      have hcode : f.nearCode n d = code :=
        f.quantaOf_strictMono.injective (by exact_mod_cast hsame)
      have hzero := heven (by linarith)
      omega

/-- Half a step beyond the largest number, which is where numbers start to overflow. -/
def overflow : ℚ :=
  2 ^ 2 ^ (f.exponentWidth - 1) - 2 ^ (2 ^ (f.exponentWidth - 1) - f.fractionWidth - 2)

theorem infinityCode_pred_odd : (f.infinityCode - 1) % 2 = 1 := by
  cases f <;> decide

theorem overflow_eq : f.overflow =
    (f.quantaOf (f.infinityCode - 1) + f.quantaOf (f.infinityCode - 1 + 1)) / 2 / f.unit := by
  have hle : 2 ^ (2 ^ (f.exponentWidth - 1) - f.fractionWidth - 2) ≤
      2 ^ 2 ^ (f.exponentWidth - 1) := Nat.pow_le_pow_right Nat.two_pos
      (Nat.le_trans (Nat.sub_le _ _) (Nat.sub_le _ _))
  have hquanta : 2 * (2 ^ 2 ^ (f.exponentWidth - 1) -
      2 ^ (2 ^ (f.exponentWidth - 1) - f.fractionWidth - 2)) * f.unit =
        f.quantaOf (f.infinityCode - 1) + f.quantaOf (f.infinityCode - 1 + 1) := by
    cases f <;> decide +kernel
  have hunit : (f.unit : ℚ) ≠ 0 := by exact_mod_cast f.unit_pos.ne'
  have hcast : ((2 ^ 2 ^ (f.exponentWidth - 1) -
      2 ^ (2 ^ (f.exponentWidth - 1) - f.fractionWidth - 2) : Nat) : ℚ) = f.overflow := by
    rw [Nat.cast_sub hle, overflow]
    push_cast
    rfl
  rw [← hcast, ← Nat.cast_add, ← hquanta]
  push_cast
  field_simp

end Format

namespace Binary

variable {f : Format}

/-- The number that a finite number stands for. -/
def toRat (x : Binary f) : ℚ := x.quanta / f.unit

theorem abs_toRat (x : Binary f) : |x.toRat| = x.magnitude / f.unit := by
  have hunit : (0 : ℚ) < f.unit := by exact_mod_cast f.unit_pos
  rw [toRat, abs_div, abs_of_pos hunit, ← quanta_natAbs, Nat.cast_natAbs, Int.cast_abs]

theorem toRat_eq (x : Binary f) :
    x.toRat = (if x.negative then -1 else 1) * (x.magnitude / f.unit) := by
  rw [toRat, quanta]
  split <;> push_cast <;> ring

/-- `x` is `r` rounded to nearest: ties go to the even number, half a step beyond the largest number
is infinite, and the sign is kept. -/
structure IsNearest (x : Binary f) (r : ℚ) : Prop where
  isNaN : x.isNaN = false
  isInfinite_iff : x.isInfinite = true ↔ f.overflow ≤ |r|
  nearest : x.isFinite = true → ∀ y : Binary f, y.isFinite = true → |r - x.toRat| ≤ |r - y.toRat|
  even : x.isFinite = true → ∀ y : Binary f, y.isFinite = true → y.code ≠ x.code →
    |r - x.toRat| = |r - y.toRat| → x.code % 2 = 0
  negative : r ≠ 0 → x.negative = decide (r < 0)

theorem ofRatio_code_of_isFinite {negative : Bool} {n d : Nat}
    (h : (ofRatio negative n d : Binary f).isFinite = true) :
    (ofRatio negative n d : Binary f).code = f.nearCode n d := by
  have hlt : (ofRatio negative n d : Binary f).code < f.infinityCode := of_decide_eq_true h
  rw [ofRatio_code] at hlt ⊢
  omega

/-- The exact quotient that `ofRatio` rounds, in units. -/
def ratio (f : Format) (negative : Bool) (n d : Nat) : ℚ :=
  (if negative then -1 else 1) * (n / d / f.unit)

theorem abs_ratio (negative : Bool) (n d : Nat) : |ratio f negative n d| = n / d / f.unit := by
  have hnonneg : (0 : ℚ) ≤ n / d / f.unit := by positivity
  rw [ratio]
  cases negative with
  | true => rw [if_pos rfl, neg_one_mul, abs_neg, abs_of_nonneg hnonneg]
  | false => rw [if_neg Bool.false_ne_true, one_mul, abs_of_nonneg hnonneg]

theorem ratio_neg_iff {negative : Bool} {n d : Nat} (h : ratio f negative n d ≠ 0) :
    decide (ratio f negative n d < 0) = negative := by
  have hpos : 0 < |ratio f negative n d| := abs_pos.2 h
  rw [abs_ratio] at hpos
  rw [ratio]
  cases negative with
  | true =>
    rw [if_pos rfl, neg_one_mul, decide_eq_true_iff]
    linarith
  | false =>
    rw [if_neg Bool.false_ne_true, one_mul, decide_eq_false_iff_not]
    linarith

theorem distance_le (r : ℚ) (y : Binary f) :
    |(|r|) - y.magnitude / f.unit| ≤ |r - y.toRat| := by
  have hle := abs_abs_sub_abs_le r y.toRat
  rwa [abs_toRat] at hle

theorem distance_eq {x : Binary f} {r : ℚ} (h : r ≠ 0 → x.negative = decide (r < 0)) :
    |r - x.toRat| = |(|r|) - x.magnitude / f.unit| := by
  by_cases hr : r = 0
  · rw [hr, abs_zero, zero_sub, zero_sub, abs_neg, abs_neg, abs_toRat, ← abs_toRat, abs_abs]
  · rw [toRat_eq, h hr]
    by_cases hneg : r < 0
    · rw [decide_eq_true hneg, if_pos rfl, abs_of_neg hneg, neg_one_mul, sub_neg_eq_add,
        ← abs_neg, neg_add, ← sub_eq_add_neg]
    · rw [decide_eq_false hneg, if_neg Bool.false_ne_true, abs_of_nonneg (not_lt.1 hneg), one_mul]

/-- A quotient is rounded to nearest. -/
theorem ofRatio_isNearest (negative : Bool) (n : Nat) {d : Nat} (hd : 0 < d) :
    (ofRatio negative n d : Binary f).IsNearest (ratio f negative n d) := by
  have hunit : (0 : ℚ) < f.unit := by exact_mod_cast f.unit_pos
  have hsign : ratio f negative n d ≠ 0 →
      (ofRatio negative n d : Binary f).negative = decide (ratio f negative n d < 0) :=
    fun hr => (ratio_neg_iff hr).symm
  have hquanta : ∀ m : Nat,
      |(|ratio f negative n d|) - m / f.unit| = |(n / d : ℚ) - m| / f.unit := by
    intro m
    rw [abs_ratio, ← sub_div, abs_div, abs_of_pos hunit]
  constructor
  case isNaN => exact ofRatio_isNaN negative n d
  case isInfinite_iff =>
    have hiff := f.lt_nearCode_iff n hd f.infinityCode_pred_odd
    have hpos := f.infinityCode_pos
    have hcode : (ofRatio negative n d : Binary f).isInfinite = true ↔
        f.infinityCode - 1 < f.nearCode n d := by
      rw [isInfinite, beq_iff_eq, ofRatio_code]
      omega
    rw [hcode, hiff, abs_ratio, f.overflow_eq, div_le_div_iff_of_pos_right hunit]
  case nearest =>
    intro hx y hy
    have hcode := ofRatio_code_of_isFinite hx
    apply le_trans _ (distance_le _ y)
    rw [distance_eq hsign, hquanta, hquanta, magnitude, magnitude, hcode,
      div_le_div_iff_of_pos_right hunit]
    by_cases hne : y.code = f.nearCode n d
    · rw [hne]
    · exact (f.nearCode_nearest n hd hne).1
  case even =>
    intro hx y hy hne htie
    have hcode := ofRatio_code_of_isFinite hx
    have hother := distance_le (ratio f negative n d) y
    rw [← htie, distance_eq hsign, hquanta, hquanta, magnitude, magnitude, hcode,
      div_le_div_iff_of_pos_right hunit] at hother
    rw [hcode] at hne ⊢
    obtain ⟨hle, heven⟩ := f.nearCode_nearest n hd hne
    exact heven (le_antisymm hle hother)
  case negative => exact hsign

theorem isFinite_iff {x : Binary f} (h : x.isNaN = false) :
    x.isFinite = true ↔ ¬x.isInfinite = true := by
  constructor
  · intro hfinite hinfinite
    rw [isInfinite_of_isFinite hfinite] at hinfinite
    cases hinfinite
  · intro hnot
    exact isFinite_of_not h (Bool.eq_false_iff.2 hnot)

/-- Two nearest numbers would tie and both be even, and the number between them would be nearer. -/
theorem IsNearest.not_lt {x y : Binary f} {r : ℚ} (hx : x.IsNearest r) (hy : y.IsNearest r)
    (hfx : x.isFinite = true) (hfy : y.isFinite = true) : ¬x.code < y.code := by
  intro hlt
  have hunit : (0 : ℚ) < f.unit := by exact_mod_cast f.unit_pos
  have htie := le_antisymm (hx.nearest hfx y hfy) (hy.nearest hfy x hfx)
  have hxe := hx.even hfx y hfy (Nat.ne_of_gt hlt) htie
  have hye := hy.even hfy x hfx (Nat.ne_of_lt hlt) htie.symm
  have hylt : y.code < f.infinityCode := of_decide_eq_true hfy
  let z : Binary f := ⟨x.negative, x.code + 1, by have := y.code_lt; omega⟩
  have hfz : z.isFinite = true := decide_eq_true (show x.code + 1 < f.infinityCode by omega)
  have hnear := hx.nearest hfx z hfz
  have hxz : (x.magnitude : ℚ) / f.unit < z.magnitude / f.unit := by
    rw [div_lt_div_iff_of_pos_right hunit, Nat.cast_lt, magnitude_lt_iff]
    exact Nat.lt_succ_self x.code
  have hzy : (z.magnitude : ℚ) / f.unit < y.magnitude / f.unit := by
    rw [div_lt_div_iff_of_pos_right hunit, Nat.cast_lt, magnitude_lt_iff]
    change x.code + 1 < y.code
    omega
  rw [distance_eq hx.negative, distance_eq (x := z) hx.negative] at hnear
  rw [distance_eq hx.negative, distance_eq hy.negative] at htie
  rcases abs_eq_abs.1 htie with heq | heq
  · linarith
  · rw [abs_of_nonneg (by linarith)] at hnear
    rcases abs_cases (|r| - z.magnitude / f.unit) with ⟨habs, -⟩ | ⟨habs, -⟩ <;> linarith

theorem IsNearest.unique {x y : Binary f} {r : ℚ} (hx : x.IsNearest r) (hy : y.IsNearest r)
    (hr : r ≠ 0) : x = y := by
  have hsign : x.negative = y.negative := (hx.negative hr).trans (hy.negative hr).symm
  have hcode : x.code = y.code := by
    have hiff : x.isInfinite = true ↔ y.isInfinite = true :=
      hx.isInfinite_iff.trans hy.isInfinite_iff.symm
    by_cases hinf : x.isInfinite = true
    · have hxc : x.code = f.infinityCode := beq_iff_eq.1 hinf
      have hyc : y.code = f.infinityCode := beq_iff_eq.1 (hiff.1 hinf)
      rw [hxc, hyc]
    · have hfx := (isFinite_iff hx.isNaN).2 hinf
      have hfy := (isFinite_iff hy.isNaN).2 fun h => hinf (hiff.2 h)
      have hle := hx.not_lt hy hfx hfy
      have hge := hy.not_lt hx hfy hfx
      omega
  exact eq_of_code hsign hcode

end Binary

end Tabular
