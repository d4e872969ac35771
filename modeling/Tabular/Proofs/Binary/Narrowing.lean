import Tabular.Proofs.Binary.Quotient

namespace Tabular

/-- `n` is beside the midpoint of two neighbouring multiples of `step`, on the side of the odd one,
and the midpoint is no further away than half of `slack`. -/
def BesideMidpoint (step slack n : Nat) : Prop :=
  n / step % 2 = 1 ∧ n % step < step / 2 ∧ step ≤ 2 * (n % step) + slack ∨
    n / step % 2 = 0 ∧ step / 2 < n % step ∧ 2 * (n % step) ≤ step + slack

instance (step slack n : Nat) : Decidable (BesideMidpoint step slack n) :=
  inferInstanceAs (Decidable (_ ∨ _))

theorem midpoint_mul (q h d : Nat) :
    (q * (4 * h) + 2 * h) * d = q * (4 * h * d) + 2 * (h * d) := by
  ring

namespace RoundsTo

variable {n a p q h d : Nat}

/-- A number that the first step does not take to a midpoint is as well rounded at once. -/
theorem of_twice (hd : 0 < d) (ha : RoundsTo n d a) (hp : RoundsTo a (4 * h) p)
    (hlow : 2 * (p * (4 * h)) ≠ 2 * a + 4 * h) (hhigh : 2 * a ≠ 2 * (p * (4 * h)) + 4 * h) :
    RoundsTo n (4 * h * d) p := by
  have hlower := ha.lower
  have hupper := ha.upper
  have hbelow : 2 * (p * (4 * h)) + 2 ≤ 2 * a + 4 * h := by
    have := hp.lower
    omega
  have habove : 2 * a + 2 ≤ 2 * (p * (4 * h)) + 4 * h := by
    have := hp.upper
    omega
  have hbelow' := Nat.mul_le_mul_right d hbelow
  have habove' := Nat.mul_le_mul_right d habove
  have hproduct : p * (4 * h * d) = p * (4 * h) * d := (Nat.mul_assoc p (4 * h) d).symm
  simp only [Nat.add_mul, Nat.mul_assoc 2] at hbelow' habove'
  rw [← hproduct] at hbelow' habove'
  exact ⟨by omega, by omega, fun htie => by omega⟩

theorem midpoint_cases (hh : 0 < h) (hp : RoundsTo (q * (4 * h) + 2 * h) (4 * h) p) :
    p = q ∧ q % 2 = 0 ∨ p = q + 1 ∧ q % 2 = 1 := by
  have hpos : 0 < 4 * h := by omega
  have hsucc : (q + 1) * (4 * h) = q * (4 * h) + 4 * h := Nat.succ_mul q (4 * h)
  have hlow : q ≤ p := hp.le_of_mul_le hpos (by omega)
  have hhigh : p ≤ q + 1 := hp.le_of_le_mul hpos (by omega)
  rcases Nat.lt_or_eq_of_le hhigh with hlt | rfl
  · have hpq : p = q := by omega
    subst hpq
    exact .inl ⟨rfl, hp.even (.inr (by omega))⟩
  · have heven := hp.even (.inl (by omega))
    exact .inr ⟨rfl, by omega⟩

theorem down_iff (hh : 0 < h) (ha : RoundsTo n d (q * (4 * h) + 2 * h))
    (heven : q % 2 = 0) :
    RoundsTo n (4 * h * d) q ↔ n ≤ (q * (4 * h) + 2 * h) * d := by
  have hstep : 4 * h * d = 4 * (h * d) := Nat.mul_assoc 4 h d
  have hwide : d ≤ h * d := Nat.le_mul_of_pos_left d hh
  have hlower := ha.lower
  rw [midpoint_mul] at hlower ⊢
  constructor
  · intro hround
    have := hround.upper
    omega
  · intro hle
    exact ⟨by omega, by omega, fun _ => heven⟩

theorem up_iff (hh : 0 < h) (ha : RoundsTo n d (q * (4 * h) + 2 * h))
    (hodd : q % 2 = 1) :
    RoundsTo n (4 * h * d) (q + 1) ↔ (q * (4 * h) + 2 * h) * d ≤ n := by
  have hstep : 4 * h * d = 4 * (h * d) := Nat.mul_assoc 4 h d
  have hsucc : (q + 1) * (4 * h * d) = q * (4 * h * d) + 4 * h * d := Nat.succ_mul q (4 * h * d)
  have hwide : d ≤ h * d := Nat.le_mul_of_pos_left d hh
  have hupper := ha.upper
  rw [midpoint_mul] at hupper ⊢
  constructor
  · intro hround
    have := hround.lower
    omega
  · intro hle
    exact ⟨by omega, by omega, fun _ => by omega⟩

theorem besideMidpoint_iff (hd : 0 < d) (hh : 0 < h) (ha : RoundsTo n d (q * (4 * h) + 2 * h)) :
    BesideMidpoint (4 * h * d) d n ↔
      q % 2 = 1 ∧ n < (q * (4 * h) + 2 * h) * d ∨ q % 2 = 0 ∧ (q * (4 * h) + 2 * h) * d < n := by
  have hstep : 4 * h * d = 4 * (h * d) := Nat.mul_assoc 4 h d
  have hsucc : (q + 1) * (4 * h * d) = q * (4 * h * d) + 4 * h * d := Nat.succ_mul q (4 * h * d)
  have hwide : d ≤ h * d := Nat.le_mul_of_pos_left d hh
  have hlower := ha.lower
  have hupper := ha.upper
  rw [midpoint_mul] at hlower hupper ⊢
  have hquotient : n / (4 * h * d) = q := Nat.div_eq_of_lt_le (by omega) (by omega)
  have hrest := Nat.div_add_mod' n (4 * h * d)
  rw [hquotient] at hrest
  rw [BesideMidpoint, hquotient]
  omega

end RoundsTo

/-- What is so near to a midpoint goes to it on the fine grid, also from halfway. -/
theorem BesideMidpoint.roundsTo {n h d : Nat} (hbeside : BesideMidpoint (4 * h * d) d n) :
    RoundsTo n d (n / (4 * h * d) * (4 * h) + 2 * h) := by
  have hstep : 4 * h * d = 4 * (h * d) := Nat.mul_assoc 4 h d
  have hrest := Nat.div_add_mod' n (4 * h * d)
  rw [BesideMidpoint] at hbeside
  constructor
  · rw [midpoint_mul]
    omega
  · rw [midpoint_mul]
    omega
  · intro _
    generalize n / (4 * h * d) = q
    have hdouble : q * (4 * h) + 2 * h = 2 * (q * (2 * h) + h) := by ring
    rw [hdouble, Nat.mul_mod_right]

/-- Rounding twice is rounding at once, but for numbers beside a midpoint. -/
theorem roundEven_roundEven_iff (n : Nat) {h d : Nat} (hh : 0 < h) (hd : 0 < d) :
    roundEven (roundEven n d) (4 * h) = roundEven n (4 * h * d) ↔
      ¬BesideMidpoint (4 * h * d) d n := by
  have hpos : 0 < 4 * h := by omega
  have hstep : 0 < 4 * h * d := Nat.mul_pos hpos hd
  have ha := RoundsTo.of_roundEven n hd
  have hp := RoundsTo.of_roundEven (roundEven n d) hpos
  generalize roundEven n d = a at ha hp ⊢
  generalize roundEven a (4 * h) = p at hp ⊢
  have honce : p = roundEven n (4 * h * d) ↔ RoundsTo n (4 * h * d) p := by
    constructor
    · rintro rfl
      exact RoundsTo.of_roundEven n hstep
    · intro hround
      exact (hround.roundEven_eq hstep).symm
  rw [honce]
  by_cases hmidpoint : ∃ q, a = q * (4 * h) + 2 * h
  · obtain ⟨q, rfl⟩ := hmidpoint
    rw [ha.besideMidpoint_iff hd hh]
    rcases hp.midpoint_cases hh with ⟨rfl, heven⟩ | ⟨rfl, hodd⟩
    · rw [ha.down_iff hh heven]
      omega
    · rw [ha.up_iff hh hodd]
      omega
  · have hnot : ¬BesideMidpoint (4 * h * d) d n :=
      fun hbeside => hmidpoint ⟨_, ha.unique hd hbeside.roundsTo⟩
    refine iff_of_true (ha.of_twice hd hp ?_ ?_) hnot
    · intro htie
      cases p with
      | zero =>
        rw [Nat.zero_mul] at htie
        omega
      | succ q =>
        rw [Nat.succ_mul q (4 * h)] at htie
        exact hmidpoint ⟨q, by omega⟩
    · intro htie
      exact hmidpoint ⟨p, by omega⟩

namespace Format

variable (f : Format) {n shift : Nat}

theorem nearCode_of_bounds (hlow : 2 ^ f.fractionWidth * 2 ^ shift ≤ n)
    (hhigh : n ≤ 2 ^ (f.fractionWidth + 1) * 2 ^ shift) :
    f.nearCode n 1 = shift * 2 ^ f.fractionWidth + roundEven n (2 ^ shift) := by
  have hpos := Nat.two_pow_pos shift
  rcases Nat.lt_or_eq_of_le hhigh with hlt | rfl
  · apply f.nearCode_of_log2
    rw [← Nat.pow_add] at hlow hlt
    have hne : n ≠ 0 := Nat.pos_iff_ne_zero.1 (Nat.lt_of_lt_of_le (Nat.two_pow_pos _) hlow)
    rw [Nat.log2_eq_iff hne]
    refine ⟨hlow, ?_⟩
    rwa [Nat.add_right_comm] at hlt
  · have hlog : (2 ^ (f.fractionWidth + 1) * 2 ^ shift).log2 = f.fractionWidth + (shift + 1) := by
      rw [← Nat.pow_add, Nat.log2_two_pow, Nat.add_right_comm, Nat.add_assoc]
    have hupper : 2 ^ (f.fractionWidth + 1) * 2 ^ shift =
        2 ^ f.fractionWidth * 2 ^ (shift + 1) := by
      rw [Nat.pow_succ, Nat.pow_succ]
      ring
    rw [f.nearCode_of_log2 hlog, roundEven_mul _ hpos, hupper, roundEven_mul _ (Nat.two_pow_pos _),
      Nat.pow_succ]
    ring

theorem codeNear_unit (hlow : 2 ^ f.fractionWidth * 2 ^ shift ≤ n)
    (hhigh : n ≤ 2 ^ (f.fractionWidth + 1) * 2 ^ shift)
    (hroom : shift + f.quantumExponent + 2 < 2 ^ f.exponentWidth - 1) :
    f.codeNear (n * f.unit) 1 =
        (shift + f.quantumExponent) * 2 ^ f.fractionWidth + roundEven n (2 ^ shift) ∧
      f.codeNear (n * f.unit) 1 < f.infinityCode := by
  have hleading : 2 ^ f.fractionWidth ≤ n :=
    Nat.le_trans (Nat.le_mul_of_pos_right _ (Nat.two_pow_pos shift)) hlow
  have hcode : f.nearCode n 1 + f.quantumExponent * 2 ^ f.fractionWidth =
      (shift + f.quantumExponent) * 2 ^ f.fractionWidth + roundEven n (2 ^ shift) := by
    rw [f.nearCode_of_bounds hlow hhigh]
    ring
  obtain ⟨-, hmost⟩ := f.roundEven_bounds hlow hhigh
  have hlt : f.nearCode n 1 + f.quantumExponent * 2 ^ f.fractionWidth < f.infinityCode := by
    calc f.nearCode n 1 + f.quantumExponent * 2 ^ f.fractionWidth
        ≤ (shift + f.quantumExponent) * 2 ^ f.fractionWidth + 2 ^ (f.fractionWidth + 1) := by
          rw [hcode]
          exact Nat.add_le_add_left hmost _
      _ = (shift + f.quantumExponent + 2) * 2 ^ f.fractionWidth := by
          rw [Nat.pow_succ]
          ring
      _ < f.infinityCode := Nat.mul_lt_mul_of_pos_right hroom (Nat.two_pow_pos _)
  have hunit := f.codeNear_mul_unit hleading hlt
  exact ⟨hunit.trans hcode, hunit.trans_lt hlt⟩

end Format

namespace Binary

variable {f g : Format}

theorem convert_isNearest {x : Binary f} (hx : x.isFinite = true) :
    (x.convert : Binary g).IsNearest x.toRat := by
  have hunit : (g.unit : ℚ) ≠ 0 := by exact_mod_cast g.unit_pos.ne'
  have hconvert : (x.convert : Binary g) = ofRatio x.negative (x.magnitude * g.unit) f.unit := by
    simp only [convert, isNaN_of_isFinite hx, isInfinite_of_isFinite hx, Bool.false_eq_true,
      ↓reduceIte]
  have hratio : ratio g x.negative (x.magnitude * g.unit) f.unit = x.toRat := by
    rw [ratio, toRat_eq, Nat.cast_mul, div_right_comm, mul_div_cancel_right₀ _ hunit]
  rw [hconvert, ← hratio]
  exact ofRatio_isNearest _ _ f.unit_pos

theorem ofInt_magnitude_of_bounds {n : Int} {shift : Nat}
    (hlow : 2 ^ f.fractionWidth * 2 ^ shift ≤ n.natAbs)
    (hhigh : n.natAbs ≤ 2 ^ (f.fractionWidth + 1) * 2 ^ shift)
    (hroom : shift + f.quantumExponent + 2 < 2 ^ f.exponentWidth - 1) :
    (ofInt n : Binary f).isFinite = true ∧
      (ofInt n : Binary f).magnitude = roundEven n.natAbs (2 ^ shift) * 2 ^ shift * f.unit := by
  obtain ⟨hcode, hlt⟩ := f.codeNear_unit hlow hhigh hroom
  obtain ⟨hleast, hmost⟩ := f.roundEven_bounds hlow hhigh
  refine ⟨decide_eq_true hlt, ?_⟩
  have hsplits : f.Splits (f.codeNear (n.natAbs * f.unit) 1) (shift + f.quantumExponent)
      (roundEven n.natAbs (2 ^ shift)) := ⟨hcode, .inr hleast, hmost⟩
  calc (ofInt n : Binary f).magnitude = f.quantaOf (f.codeNear (n.natAbs * f.unit) 1) := rfl
    _ = roundEven n.natAbs (2 ^ shift) * 2 ^ (shift + f.quantumExponent) := hsplits.quantaOf
    _ = roundEven n.natAbs (2 ^ shift) * 2 ^ shift * f.unit := by
      rw [Format.unit_eq, Nat.pow_add, Nat.mul_assoc]

theorem ofInt_negative (n : Int) : (ofInt n : Binary f).negative = decide (n < 0) := rfl

section Single

variable {n : Int}

/-- The single that is nearest to the double that is nearest to an integer. -/
def singleOfInt (n : Int) : Single := (ofInt n : Double).convert

theorem not_besideMidpoint_of_lt {n : Nat} (h : n < 2 ^ 53) :
    ¬BesideMidpoint (2 ^ (n.log2 - 23)) (2 ^ (n.log2 - 52)) n := by
  have hslack : n.log2 - 52 = 0 := by
    rcases Nat.eq_zero_or_pos n with rfl | hpos
    · rfl
    · have hlog := (Nat.log2_lt (Nat.pos_iff_ne_zero.1 hpos)).2 h
      omega
  rw [BesideMidpoint, hslack]
  cases hstep : n.log2 - 23 with
  | zero => omega
  | succ k =>
    rw [Nat.pow_succ]
    omega

theorem singleOfInt_isNearest_of_lt (h : n.natAbs < 2 ^ 53) : (singleOfInt n).IsNearest n := by
  obtain ⟨hfinite, hexact⟩ := ofInt_toRat_of_lt (f := .binary64) h
  have hnearest := convert_isNearest (g := .binary32) hfinite
  rwa [hexact] at hnearest

theorem singleOfInt_eq {n : Int} (h : (ofInt n : Double).isFinite = true) :
    singleOfInt n = ofRatio (decide (n < 0)) ((ofInt n : Double).magnitude * Format.unit .binary32)
      (Format.unit .binary64) := by
  simp only [singleOfInt, convert, isNaN_of_isFinite h, isInfinite_of_isFinite h,
    Bool.false_eq_true, ↓reduceIte]
  rfl

theorem singleOfInt_isNearest_iff_code (hn : n ≠ 0) :
    (singleOfInt n).IsNearest n ↔ (singleOfInt n).code = (ofInt n : Single).code := by
  have hnearest : (ofInt n : Single).IsNearest n := ofInt_isNearest n
  constructor
  · intro h
    rw [h.unique hnearest (by exact_mod_cast hn)]
  · intro hcode
    have hsign : (singleOfInt n).negative = (ofInt n : Single).negative := by
      rw [singleOfInt, convert_negative, ofInt_negative, ofInt_negative]
    rwa [eq_of_code hsign hcode]

theorem codeNear_single {m shift : Nat} (hlow : 2 ^ 52 * 2 ^ shift ≤ m)
    (hhigh : m ≤ 2 ^ 53 * 2 ^ shift) (hshift : shift < 75) :
    Format.codeNear .binary32 (m * Format.unit .binary32) 1 =
      (shift + 29 + 149) * 2 ^ 23 + roundEven m (2 ^ 29 * 2 ^ shift) := by
  have hwide : 2 ^ (shift + 29) = 2 ^ 29 * 2 ^ shift := by rw [Nat.add_comm, Nat.pow_add]
  have hcode := @Format.codeNear_unit .binary32 m (shift + 29)
    (by change 2 ^ 23 * _ ≤ _; omega) (by change _ ≤ 2 ^ 24 * _; omega)
    (by change shift + 29 + 149 + 2 < 255; omega)
  rw [hwide] at hcode
  exact hcode.1

theorem singleOfInt_code {shift : Nat} (hlow : 2 ^ 52 * 2 ^ shift ≤ n.natAbs)
    (hhigh : n.natAbs ≤ 2 ^ 53 * 2 ^ shift) (hshift : shift < 75) :
    (singleOfInt n).code =
      (shift + 29 + 149) * 2 ^ 23 + roundEven (roundEven n.natAbs (2 ^ shift)) (2 ^ 29) := by
  obtain ⟨hfinite, hmagnitude⟩ := ofInt_magnitude_of_bounds (f := .binary64) hlow hhigh
    (by change shift + 1074 + 2 < 2047; omega)
  obtain ⟨hleast, hmost⟩ := Format.roundEven_bounds .binary64 hlow hhigh
  have hsingle := codeNear_single (Nat.mul_le_mul_right (2 ^ shift) hleast)
    (Nat.mul_le_mul_right (2 ^ shift) hmost) hshift
  rw [roundEven_mul_right _ (Nat.two_pow_pos 29) (Nat.two_pow_pos shift)] at hsingle
  have hscaled := Format.codeNear_mul_right .binary32
    (roundEven n.natAbs (2 ^ shift) * 2 ^ shift * Format.unit .binary32) Nat.one_pos
    (Format.unit_pos .binary64)
  rw [Nat.one_mul, hsingle] at hscaled
  rw [singleOfInt_eq hfinite, hmagnitude, Nat.mul_right_comm]
  exact hscaled

/-- Integers become their nearest singles, but for those beside a midpoint of singles that are no
further from it than half the distance of doubles. -/
theorem singleOfInt_isNearest_iff (h : n.natAbs < 2 ^ 127) :
    (singleOfInt n).IsNearest n ↔
      ¬BesideMidpoint (2 ^ (n.natAbs.log2 - 23)) (2 ^ (n.natAbs.log2 - 52)) n.natAbs := by
  by_cases hfew : n.natAbs < 2 ^ 53
  · exact iff_of_true (singleOfInt_isNearest_of_lt hfew) (not_besideMidpoint_of_lt hfew)
  have hne : n.natAbs ≠ 0 := by omega
  have hlarge : 52 ≤ n.natAbs.log2 := (Nat.le_log2 hne).2 (by omega)
  have hsmall : n.natAbs.log2 < 127 := (Nat.log2_lt hne).2 h
  obtain ⟨shift, hlog⟩ := Nat.exists_eq_add_of_le hlarge
  have hlow : 2 ^ 52 * 2 ^ shift ≤ n.natAbs := by
    rw [← Nat.pow_add, ← hlog]
    exact Nat.log2_self_le hne
  have hhigh : n.natAbs ≤ 2 ^ 53 * 2 ^ shift := by
    have hlt := Nat.lt_log2_self (n := n.natAbs)
    rw [hlog, Nat.add_right_comm, Nat.pow_add] at hlt
    exact Nat.le_of_lt hlt
  have hcode : (ofInt n : Single).code = (shift + 29 + 149) * 2 ^ 23 +
      roundEven n.natAbs (2 ^ 29 * 2 ^ shift) := codeNear_single hlow hhigh (by omega)
  have hstep : 2 ^ (n.natAbs.log2 - 23) = 2 ^ 29 * 2 ^ shift := by
    rw [← Nat.pow_add]
    congr 1
    omega
  have hslack : n.natAbs.log2 - 52 = shift := by omega
  rw [singleOfInt_isNearest_iff_code (by omega), singleOfInt_code hlow hhigh (by omega), hcode,
    Nat.add_left_cancel_iff, hstep, hslack]
  exact roundEven_roundEven_iff n.natAbs (h := 2 ^ 27) (by decide) (Nat.two_pow_pos shift)

end Single

end Binary

end Tabular
