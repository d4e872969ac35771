import Mathlib.Order.Monotone.Basic
import Tabular.Proofs.Binary.Exact
import Tabular.Proofs.Binary.Rounding

namespace Tabular

namespace Format

variable (f : Format)

/-- A code is made of a shift and a significand, which has its leading bit if there is a shift. -/
structure Splits (code shift significand : Nat) : Prop where
  code_eq : code = shift * 2 ^ f.fractionWidth + significand
  leading : shift = 0 ∨ 2 ^ f.fractionWidth ≤ significand
  le : significand ≤ 2 ^ (f.fractionWidth + 1)

variable {f} {code shift significand : Nat}

theorem Splits.quantaOf (h : f.Splits code shift significand) :
    f.quantaOf code = significand * 2 ^ shift := by
  obtain ⟨rfl, hleading, hle⟩ := h
  have hdouble : 2 ^ (f.fractionWidth + 1) = 2 ^ f.fractionWidth + 2 ^ f.fractionWidth := by
    rw [Nat.pow_succ, Nat.mul_two]
  by_cases hlow : significand < 2 ^ f.fractionWidth
  · have hshift : shift = 0 := by omega
    rw [hshift, Nat.zero_mul, Nat.zero_add, f.quantaOf_of_lt hlow, Nat.pow_zero, Nat.mul_one]
  · by_cases htop : significand = 2 ^ (f.fractionWidth + 1)
    · have hnormal := f.quantaOf_normal (Nat.two_pow_pos f.fractionWidth) (shift + 1)
      have hcode : shift * 2 ^ f.fractionWidth + significand =
          (shift + 1 + 1) * 2 ^ f.fractionWidth + 0 := by
        rw [htop, hdouble]
        ring
      rw [hcode, hnormal, htop, Nat.add_zero, Nat.pow_succ, Nat.pow_succ]
      ring
    · have hfraction : significand - 2 ^ f.fractionWidth < 2 ^ f.fractionWidth := by omega
      have hnormal := f.quantaOf_normal hfraction shift
      have hcode : (shift + 1) * 2 ^ f.fractionWidth + (significand - 2 ^ f.fractionWidth) =
          shift * 2 ^ f.fractionWidth + significand := by
        rw [Nat.succ_mul]
        omega
      have hsignificand : 2 ^ f.fractionWidth + (significand - 2 ^ f.fractionWidth) =
          significand := by omega
      rwa [hcode, hsignificand] at hnormal

theorem Splits.mod_two (h : f.Splits code shift significand) : code % 2 = significand % 2 := by
  have heven : 2 ^ f.fractionWidth = 2 * 2 ^ (f.fractionWidth - 1) := by
    cases f <;> rfl
  rw [h.code_eq, heven, Nat.mul_left_comm, Nat.mul_add_mod]

theorem exists_splits (code : Nat) : ∃ shift significand,
    f.Splits code shift significand ∧ significand < 2 ^ (f.fractionWidth + 1) := by
  have hsplit := Nat.div_add_mod' code (2 ^ f.fractionWidth)
  have hfraction := Nat.mod_lt code (Nat.two_pow_pos f.fractionWidth)
  have hdouble : 2 ^ (f.fractionWidth + 1) = 2 ^ f.fractionWidth + 2 ^ f.fractionWidth := by
    rw [Nat.pow_succ, Nat.mul_two]
  cases he : code / 2 ^ f.fractionWidth with
  | zero =>
    rw [he] at hsplit
    refine ⟨0, code, ⟨by omega, .inl rfl, by omega⟩, by omega⟩
  | succ shift =>
    rw [he, Nat.succ_mul] at hsplit
    refine ⟨shift, 2 ^ f.fractionWidth + code % 2 ^ f.fractionWidth, ⟨?_, ?_, ?_⟩, ?_⟩
    · omega
    · exact .inr (Nat.le_add_right _ _)
    · omega
    · omega

variable (f)

theorem quantaOf_strictMono : StrictMono f.quantaOf := by
  apply strictMono_nat_of_lt_succ
  intro code
  obtain ⟨shift, significand, hcode, hlt⟩ := f.exists_splits code
  have hnext : f.Splits (code + 1) shift (significand + 1) := by
    refine ⟨?_, ?_, hlt⟩
    · rw [hcode.code_eq]
      rfl
    · exact hcode.leading.imp id Nat.le_succ_of_le
  rw [hcode.quantaOf, hnext.quantaOf]
  exact Nat.mul_lt_mul_of_pos_right (Nat.lt_succ_self significand) (Nat.two_pow_pos shift)

theorem quantaOf_zero : f.quantaOf 0 = 0 := f.quantaOf_of_lt (Nat.two_pow_pos _)

theorem exists_quantaOf_eq {n : Nat} (hn : n < 2 ^ (f.fractionWidth + 1)) (k : Nat) :
    ∃ code, f.quantaOf code = n * 2 ^ k := by
  induction k generalizing n with
  | zero =>
    have hcode : f.Splits n 0 n := ⟨by omega, .inl rfl, Nat.le_of_lt hn⟩
    exact ⟨n, hcode.quantaOf⟩
  | succ k ih =>
    by_cases hleading : 2 ^ f.fractionWidth ≤ n
    · have hcode : f.Splits ((k + 1) * 2 ^ f.fractionWidth + n) (k + 1) n :=
        ⟨rfl, .inr hleading, Nat.le_of_lt hn⟩
      exact ⟨_, hcode.quantaOf⟩
    · have hdouble : 2 * n < 2 ^ (f.fractionWidth + 1) := by
        rw [Nat.pow_succ]
        omega
      obtain ⟨code, hcode⟩ := ih hdouble
      refine ⟨code, ?_⟩
      rw [hcode, Nat.pow_succ]
      ring

/-- The code of the number nearest to `n / d` quanta, were there no largest number. -/
def nearCode (n d : Nat) : Nat :=
  let shift := (n / d).log2 - f.fractionWidth
  shift * 2 ^ f.fractionWidth + roundEven n (d * 2 ^ shift)

theorem codeNear_mul_right (n : Nat) {d c : Nat} (hd : 0 < d) (hc : 0 < c) :
    f.codeNear (n * c) (d * c) = f.codeNear n d := by
  have hround : ∀ shift, roundEven (n * c) (d * c * 2 ^ shift) = roundEven n (d * 2 ^ shift) := by
    intro shift
    rw [Nat.mul_right_comm d c]
    exact roundEven_mul_right n (Nat.mul_pos hd (Nat.two_pow_pos shift)) hc
  simp only [codeNear, Nat.pow_eq, Nat.mul_div_mul_right _ _ hc, hround]

/-- A quotient that is the magnitude of a code rounds to that code, or overflows. -/
theorem codeNear_of_quantaOf {n d : Nat} (hd : 0 < d) (h : f.quantaOf code * d = n) :
    f.codeNear n d = min f.infinityCode code := by
  have hscaled := f.codeNear_mul_right (f.quantaOf code) Nat.one_pos hd
  rw [Nat.one_mul, h] at hscaled
  rw [hscaled, f.codeNear_quantaOf_eq_min]

/-- The shift of a rounded quotient leaves room for the significand and, if there is a shift, for
nothing else. -/
theorem nearCode_splits (n : Nat) {d : Nat} (hd : 0 < d) : ∃ shift significand,
    f.Splits (f.nearCode n d) shift significand ∧ RoundsTo n (d * 2 ^ shift) significand ∧
      (shift = 0 ∨ 2 ^ f.fractionWidth * (d * 2 ^ shift) ≤ n) := by
  let shift := (n / d).log2 - f.fractionWidth
  have hpos : 0 < d * 2 ^ shift := Nat.mul_pos hd (Nat.two_pow_pos shift)
  have hround := RoundsTo.of_roundEven n hpos
  have hlow : shift = 0 ∨ 2 ^ f.fractionWidth * (d * 2 ^ shift) ≤ n := by
    by_cases hshift : shift = 0
    · exact .inl hshift
    · right
      have hlog : (n / d).log2 = f.fractionWidth + shift := by omega
      have hne : n / d ≠ 0 := by
        intro h0
        rw [h0, Nat.log2_zero] at hlog
        omega
      have hself := Nat.log2_self_le hne
      rw [hlog, Nat.pow_add, Nat.le_div_iff_mul_le hd] at hself
      calc 2 ^ f.fractionWidth * (d * 2 ^ shift) = 2 ^ f.fractionWidth * 2 ^ shift * d := by ring
        _ ≤ n := hself
  have hhigh : n ≤ 2 ^ (f.fractionWidth + 1) * (d * 2 ^ shift) := by
    have hlt : n / d < 2 ^ (f.fractionWidth + 1 + shift) := by
      apply Nat.lt_of_lt_of_le Nat.lt_log2_self
      exact Nat.pow_le_pow_right Nat.two_pos (by omega)
    rw [Nat.div_lt_iff_lt_mul hd, Nat.pow_add] at hlt
    calc n ≤ 2 ^ (f.fractionWidth + 1) * 2 ^ shift * d := Nat.le_of_lt hlt
      _ = 2 ^ (f.fractionWidth + 1) * (d * 2 ^ shift) := by ring
  refine ⟨shift, roundEven n (d * 2 ^ shift), ⟨rfl, ?_, ?_⟩, hround, hlow⟩
  · exact hlow.imp id (hround.le_of_mul_le hpos)
  · exact hround.le_of_le_mul hpos hhigh

theorem nearCode_of_log2 {n shift : Nat} (h : n.log2 = f.fractionWidth + shift) :
    f.nearCode n 1 = shift * 2 ^ f.fractionWidth + roundEven n (2 ^ shift) := by
  simp only [nearCode, Nat.div_one, h, Nat.add_sub_cancel_left, Nat.one_mul]

theorem roundEven_bounds {n shift : Nat} (hlow : 2 ^ f.fractionWidth * 2 ^ shift ≤ n)
    (hhigh : n ≤ 2 ^ (f.fractionWidth + 1) * 2 ^ shift) :
    2 ^ f.fractionWidth ≤ roundEven n (2 ^ shift) ∧
      roundEven n (2 ^ shift) ≤ 2 ^ (f.fractionWidth + 1) := by
  have hpos := Nat.two_pow_pos shift
  have hround := RoundsTo.of_roundEven n hpos
  exact ⟨hround.le_of_mul_le hpos hlow, hround.le_of_le_mul hpos hhigh⟩

theorem nearCode_bounds {n shift : Nat} (h : n.log2 = f.fractionWidth + shift) :
    (shift + 1) * 2 ^ f.fractionWidth ≤ f.nearCode n 1 ∧
      f.nearCode n 1 ≤ (shift + 2) * 2 ^ f.fractionWidth := by
  have hne : n ≠ 0 := by
    have hwidth : 0 < f.fractionWidth := by cases f <;> decide
    intro h0
    rw [h0, Nat.log2_zero] at h
    omega
  have hlow := Nat.log2_self_le hne
  have hhigh := Nat.lt_log2_self (n := n)
  rw [h, Nat.pow_add] at hlow
  rw [h, Nat.pow_succ, Nat.pow_add, Nat.mul_right_comm] at hhigh
  obtain ⟨hleading, hsignificand⟩ := f.roundEven_bounds hlow (Nat.le_of_lt hhigh)
  rw [f.nearCode_of_log2 h, Nat.add_mul, Nat.add_mul]
  constructor <;> omega

theorem nearCode_mul_two_pow {n : Nat} (hn : 2 ^ f.fractionWidth ≤ n) (k : Nat) :
    f.nearCode (n * 2 ^ k) 1 = f.nearCode n 1 + k * 2 ^ f.fractionWidth := by
  have hne : n ≠ 0 := Nat.pos_iff_ne_zero.1 (Nat.lt_of_lt_of_le (Nat.two_pow_pos _) hn)
  obtain ⟨shift, hshift⟩ := Nat.exists_eq_add_of_le ((Nat.le_log2 hne).2 hn)
  have hlog : (n * 2 ^ k).log2 = f.fractionWidth + (shift + k) := by
    rw [log2_scaled (Nat.log2_self_le hne) Nat.lt_log2_self, hshift, Nat.add_assoc]
  rw [f.nearCode_of_log2 hlog, f.nearCode_of_log2 hshift, Nat.pow_add,
    roundEven_mul_right n (Nat.two_pow_pos shift) (Nat.two_pow_pos k)]
  ring

theorem codeNear_mul_unit {n : Nat} (hn : 2 ^ f.fractionWidth ≤ n)
    (hroom : f.nearCode n 1 + f.quantumExponent * 2 ^ f.fractionWidth < f.infinityCode) :
    f.codeNear (n * f.unit) 1 = f.nearCode n 1 + f.quantumExponent * 2 ^ f.fractionWidth := by
  have hcode : f.codeNear (n * f.unit) 1 = min f.infinityCode (f.nearCode (n * f.unit) 1) := rfl
  rw [hcode, unit_eq, f.nearCode_mul_two_pow hn, Nat.min_eq_right (Nat.le_of_lt hroom)]

theorem quantaOf_add_mul {code : Nat} (h : 2 ^ f.fractionWidth ≤ code) (k : Nat) :
    f.quantaOf (code + k * 2 ^ f.fractionWidth) = f.quantaOf code * 2 ^ k := by
  obtain ⟨shift, significand, hsplits, -⟩ := f.exists_splits code
  have hcode := hsplits.code_eq
  have hleading : 2 ^ f.fractionWidth ≤ significand := by
    rcases hsplits.leading with hzero | hle
    · rwa [hcode, hzero, Nat.zero_mul, Nat.zero_add] at h
    · exact hle
  have hraised : f.Splits (code + k * 2 ^ f.fractionWidth) (shift + k) significand := by
    refine ⟨?_, .inr hleading, hsplits.le⟩
    rw [hcode, Nat.add_mul]
    omega
  rw [hsplits.quantaOf, hraised.quantaOf, Nat.pow_add, Nat.mul_assoc]

end Format

namespace Binary

variable {f : Format}

theorem ofRatio_code (negative : Bool) (n d : Nat) :
    (ofRatio negative n d : Binary f).code = min f.infinityCode (f.nearCode n d) := rfl

theorem ofInt_natCast (n : Nat) : (ofInt n : Binary f) = ofRatio false (n * f.unit) 1 := by
  have hneg : ¬(n : Int) < 0 := by omega
  rw [ofInt, decide_eq_false hneg, Int.natAbs_natCast]

theorem magnitude_lt_iff {x y : Binary f} : x.magnitude < y.magnitude ↔ x.code < y.code :=
  f.quantaOf_strictMono.lt_iff_lt

theorem ofRatio_of_quantaOf (negative : Bool) {n d code : Nat} (hd : 0 < d)
    (h : f.quantaOf code * d = n) (hcode : code < f.infinityCode) :
    (ofRatio negative n d : Binary f).isFinite = true ∧
      (ofRatio negative n d : Binary f).magnitude = f.quantaOf code := by
  have hnear : f.codeNear n d = code := by
    rw [f.codeNear_of_quantaOf hd h, Nat.min_eq_right (Nat.le_of_lt hcode)]
  have hcode' : (ofRatio negative n d : Binary f).code = code := hnear
  constructor
  · apply decide_eq_true
    rwa [hcode']
  · rw [magnitude, hcode']

theorem exists_code_of_lt {n : Nat} (hn : n < 2 ^ (f.fractionWidth + 1)) :
    ∃ code, f.quantaOf code = n * f.unit ∧ code < f.infinityCode := by
  obtain ⟨code, hcode⟩ := f.exists_quantaOf_eq hn f.quantumExponent
  refine ⟨code, hcode, ?_⟩
  rw [← f.quantaOf_strictMono.lt_iff_lt, hcode]
  have hroom : 2 ^ (f.fractionWidth + 1) * 2 ^ f.quantumExponent < f.quantaOf f.infinityCode := by
    cases f <;> decide +kernel
  exact Nat.lt_trans (Nat.mul_lt_mul_of_pos_right hn (Nat.two_pow_pos _)) hroom

theorem ofInt_magnitude {n : Int} {code : Nat} (h : f.quantaOf code = n.natAbs * f.unit)
    (hcode : code < f.infinityCode) :
    (ofInt n : Binary f).isFinite = true ∧
      (ofInt n : Binary f).magnitude = n.natAbs * f.unit := by
  have hone : f.quantaOf code * 1 = n.natAbs * f.unit := by rw [Nat.mul_one, h]
  have hexact := ofRatio_of_quantaOf (decide (n < 0)) Nat.one_pos hone hcode
  rw [← h]
  exact hexact

end Binary

end Tabular
