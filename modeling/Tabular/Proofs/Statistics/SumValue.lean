import Tabular.Proofs.Binary.Nearest
import Tabular.Proofs.Statistics.ExactSum
import Tabular.Proofs.Statistics.Window

namespace Tabular

namespace ExactSum

theorem power_code {k : Int} (hlow : -1022 ≤ k) (hhigh : k ≤ 1023) :
    (power k).negative = false ∧ (power k).code = (k + 1023).toNat * 2 ^ 52 := by
  have hlimit : (k + 1023).toNat * 2 ^ 52 < Format.codeLimit .binary64 := by
    change (k + 1023).toNat * 2 ^ 52 < 2 ^ 63
    omega
  constructor
  · change ((k + 1023).toNat * 2 ^ 52 / Format.codeLimit .binary64 % 2 == 1) = false
    rw [Nat.div_eq_of_lt hlimit]
    rfl
  · exact Nat.mod_eq_of_lt hlimit

theorem power_magnitude {k : Int} (hlow : -1022 ≤ k) (hhigh : k ≤ 1023) :
    (power k).magnitude = 2 ^ (k + 1074).toNat := by
  have hnormal := Format.quantaOf_normal .binary64 (Nat.two_pow_pos 52) (k + 1022).toNat
  have hcode : (power k).code = ((k + 1022).toNat + 1) * 2 ^ 52 + 0 := by
    rw [(power_code hlow hhigh).2]
    omega
  have hexponent : (k + 1074).toNat = 52 + (k + 1022).toNat := by omega
  rw [Binary.magnitude, hcode, hexponent, Nat.pow_add]
  exact hnormal

theorem power_isFinite {k : Int} (hlow : -1022 ≤ k) (hhigh : k ≤ 1023) :
    (power k).isFinite = true := by
  apply decide_eq_true
  rw [(power_code hlow hhigh).2]
  change (k + 1023).toNat * 2 ^ 52 < (2 ^ 11 - 1) * 2 ^ 52
  omega

theorem power_isZero {k : Int} (hlow : -1022 ≤ k) (hhigh : k ≤ 1023) :
    (power k).isZero = false := by
  rw [Binary.isZero, beq_eq_false_iff_ne, (power_code hlow hhigh).2]
  omega

theorem mul_power {x : Double} (hx : x.negative = false) (hfinite : x.isFinite = true) {k : Int}
    (hlow : -1022 ≤ k) (hhigh : k ≤ 1023) :
    x.mul (power k) =
      .ofRatio false (x.magnitude * 2 ^ (k + 1074).toNat) (Format.unit .binary64) := by
  have hpower := power_isFinite hlow hhigh
  simp only [Binary.mul, Binary.isNaN_of_isFinite hfinite, Binary.isNaN_of_isFinite hpower,
    Binary.isInfinite_of_isFinite hfinite, Binary.isInfinite_of_isFinite hpower, hx,
    (power_code hlow hhigh).1, power_magnitude hlow hhigh, Bool.false_eq_true, ↓reduceIte,
    Bool.or_self, bne_self_eq_false]

theorem mul_power_infinity {k : Int} (hlow : -1022 ≤ k) (hhigh : k ≤ 1023) :
    (Binary.infinity false : Double).mul (power k) = .infinity false := by
  have hinfinite : (Binary.infinity false : Double).isInfinite = true := beq_self_eq_true _
  have hpower := Binary.isNaN_of_isFinite (power_isFinite hlow hhigh)
  simp only [Binary.mul, Binary.infinity_isNaN, hpower, hinfinite,
    Binary.isZero_of_isInfinite hinfinite, power_isZero hlow hhigh, Bool.false_eq_true, ↓reduceIte,
    Bool.true_or, Bool.or_self]
  rw [(power_code hlow hhigh).1]
  rfl

theorem unit_eq : Format.unit .binary64 = 2 ^ 1074 := by
  rw [Format.unit_eq, Format.quantumExponent]

/-- A positive normal number, or an infinity that is not to be scaled down. -/
structure Scalable (x : Double) (k : Int) : Prop where
  negative : x.negative = false
  normal : 2 ^ 52 ≤ x.code
  le : x.code ≤ Format.infinityCode .binary64
  isFinite : k < 0 → x.code < Format.infinityCode .binary64

/-- Multiplying by a power of two moves the code by whole exponents, as long as the result is normal
too or overflows. -/
theorem mul_power_code {x : Double} {k : Int} (h : Scalable x k) (hlow : -1022 ≤ k)
    (hhigh : k ≤ 1023) (code : Nat) (hcode : (code : Int) = x.code + k * 2 ^ 52)
    (hleast : 2 ^ 52 ≤ code) :
    (x.mul (power k)).negative = false ∧
      (x.mul (power k)).code = min (Format.infinityCode .binary64) code := by
  by_cases hlt : x.code < Format.infinityCode .binary64
  · have hfinite : x.isFinite = true := decide_eq_true hlt
    have hproduct : Format.quantaOf .binary64 code * Format.unit .binary64 =
        x.magnitude * 2 ^ (k + 1074).toNat := by
      rw [Binary.magnitude, unit_eq]
      rcases Int.le_total 0 k with hk | hk
      · have hmoved : x.code + k.toNat * 2 ^ 52 = code := by omega
        have hup : Format.quantaOf .binary64 (x.code + k.toNat * 2 ^ 52) =
            Format.quantaOf .binary64 x.code * 2 ^ k.toNat :=
          Format.quantaOf_add_mul .binary64 h.normal k.toNat
        have hexponent : (k + 1074).toNat = k.toNat + 1074 := by omega
        rw [← hmoved, hup, hexponent, Nat.pow_add, Nat.mul_assoc]
      · have hmoved : code + (-k).toNat * 2 ^ 52 = x.code := by omega
        have hdown : Format.quantaOf .binary64 (code + (-k).toNat * 2 ^ 52) =
            Format.quantaOf .binary64 code * 2 ^ (-k).toNat :=
          Format.quantaOf_add_mul .binary64 hleast (-k).toNat
        have hexponent : (-k).toNat + (k + 1074).toNat = 1074 := by omega
        rw [← hmoved, hdown, Nat.mul_assoc, ← Nat.pow_add, hexponent]
    rw [mul_power h.negative hfinite hlow hhigh]
    exact ⟨rfl, Format.codeNear_of_quantaOf .binary64 (Format.unit_pos _) hproduct⟩
  · have hxcode : x.code = Format.infinityCode .binary64 := Nat.le_antisymm h.le (Nat.not_lt.1 hlt)
    have hk : ¬k < 0 := fun hk => hlt (h.isFinite hk)
    have heq := Binary.eq_infinity (x := x) (beq_iff_eq.2 hxcode)
    rw [h.negative] at heq
    have hmin : min (Format.infinityCode .binary64) code = Format.infinityCode .binary64 := by omega
    rw [heq, mul_power_infinity hlow hhigh, hmin]
    exact ⟨rfl, rfl⟩

theorem scale_code {x : Double} {k : Int} (h : Scalable x k) (code : Nat)
    (hcode : (code : Int) = x.code + k * 2 ^ 52) (hleast : 2 ^ 52 ≤ code) :
    (scale x k).negative = false ∧
      (scale x k).code = min (Format.infinityCode .binary64) code := by
  have hinf : Format.infinityCode .binary64 = 2047 * 2 ^ 52 := rfl
  have hle := h.le
  have hnormal := h.normal
  fun_induction scale x k generalizing code with
  | case1 x k hk ih =>
    have hup : Scalable x 1023 := ⟨h.negative, hnormal, hle, by omega⟩
    obtain ⟨hsign, hstep⟩ := mul_power_code hup (by omega) (by omega) (x.code + 1023 * 2 ^ 52)
      (by omega) (by omega)
    have hnormal' : 2 ^ 52 ≤ (x.mul (power 1023)).code := by omega
    have hle' : (x.mul (power 1023)).code ≤ Format.infinityCode .binary64 := by omega
    let last := ((x.mul (power 1023)).code + (k - 1023) * 2 ^ 52).toNat
    obtain ⟨hlast, heq⟩ := ih ⟨hsign, hnormal', hle', by omega⟩ last (by omega) (by omega)
      hle' hnormal'
    exact ⟨hlast, by omega⟩
  | case2 x k hk hk' ih =>
    have hfinite := h.isFinite (by omega)
    have hdown : Scalable x (-1022) := ⟨h.negative, hnormal, hle, fun _ => hfinite⟩
    obtain ⟨hsign, hstep⟩ := mul_power_code hdown (by omega) (by omega) (x.code - 1022 * 2 ^ 52)
      (by omega) (by omega)
    have hnormal' : 2 ^ 52 ≤ (x.mul (power (-1022))).code := by omega
    have hle' : (x.mul (power (-1022))).code ≤ Format.infinityCode .binary64 := by omega
    obtain ⟨hlast, heq⟩ := ih ⟨hsign, hnormal', hle', by omega⟩ code (by omega) hleast
      hle' hnormal'
    exact ⟨hlast, heq⟩
  | case3 x k hk hk' =>
    exact mul_power_code h (by omega) (by omega) code hcode hleast

theorem leading_toNat (magnitude : List UInt64) {start : Nat}
    (hlog : (Words.toNat magnitude).log2 = start + 63) :
    (if Words.anyBelow magnitude start then Words.window magnitude start ||| 1
      else Words.window magnitude start).toNat = jam (Words.toNat magnitude) (2 ^ start) := by
  have hlt := Nat.lt_log2_self (n := Words.toNat magnitude)
  have hwindow : Words.toNat magnitude / 2 ^ start < 2 ^ 64 := by
    rw [Nat.div_lt_iff_lt_mul (Nat.two_pow_pos start), ← Nat.pow_add]
    rwa [hlog, show start + 63 + 1 = 64 + start by omega] at hlt
  have hbelow := Words.anyBelow_iff magnitude start
  by_cases hrest : Words.toNat magnitude % 2 ^ start = 0
  · have hnot : ¬Words.anyBelow magnitude start = true := fun h => hbelow.1 h hrest
    rw [if_neg hnot, jam, if_pos hrest, Words.window_toNat, Nat.mod_eq_of_lt hwindow]
  · rw [if_pos (hbelow.2 hrest), jam, if_neg hrest, UInt64.toNat_or, Words.window_toNat,
      Nat.mod_eq_of_lt hwindow, UInt64.toNat_one]

theorem log2_jam {n start : Nat} (hlog : n.log2 = start + 63) :
    (jam n (2 ^ start)).log2 = 63 := by
  have hne : n ≠ 0 := by
    intro h0
    rw [h0, Nat.log2_zero] at hlog
    omega
  have hlow := Nat.log2_self_le hne
  have hhigh := Nat.lt_log2_self (n := n)
  have hlow' : 2 ^ 63 ≤ n / 2 ^ start := by
    rwa [Nat.le_div_iff_mul_le (Nat.two_pow_pos start), ← Nat.pow_add, Nat.add_comm, ← hlog]
  have hhigh' : n / 2 ^ start < 2 ^ 64 := by
    rw [Nat.div_lt_iff_lt_mul (Nat.two_pow_pos start), ← Nat.pow_add]
    rwa [hlog, show start + 63 + 1 = 64 + start by omega] at hhigh
  have hjam : jam n (2 ^ start) = n / 2 ^ start ∨
      jam n (2 ^ start) = 2 * (n / 2 ^ start / 2) + 1 := by
    rw [jam]
    split
    · exact .inl rfl
    · exact .inr (or_one _)
  rw [Nat.log2_eq_iff (by omega)]
  omega

/-- Rounding the leading bits alone gives the same code, but for the exponent. -/
theorem nearCode_jam {n start : Nat} (hlog : n.log2 = start + 63) :
    Format.nearCode .binary64 n 1 =
      Format.nearCode .binary64 (jam n (2 ^ start)) 1 + start * 2 ^ 52 := by
  have hwhole : n.log2 = Format.fractionWidth .binary64 + (11 + start) := by
    rw [hlog, Format.fractionWidth]
    omega
  have hleading : (jam n (2 ^ start)).log2 = Format.fractionWidth .binary64 + 11 := log2_jam hlog
  have hround := roundEven_jam n (Nat.two_pow_pos 9) (Nat.two_pow_pos start)
  rw [Format.nearCode_of_log2 _ hwhole, Format.nearCode_of_log2 _ hleading, Nat.pow_add]
  change _ = 11 * 2 ^ 52 + roundEven (jam n (2 ^ start)) (4 * 2 ^ 9) + start * 2 ^ 52
  rw [hround]
  change (11 + start) * 2 ^ 52 + roundEven n (4 * 2 ^ 9 * 2 ^ start) = _
  omega

theorem ofInt_code {n shift : Nat} (hlog : n.log2 = 52 + shift) (hshift : shift ≤ 11) :
    (Binary.ofInt n : Double).code = Format.nearCode .binary64 n 1 + 1074 * 2 ^ 52 ∧
      2 ^ 52 ≤ Format.nearCode .binary64 n 1 ∧ Format.nearCode .binary64 n 1 ≤ 13 * 2 ^ 52 := by
  have hinf : Format.infinityCode .binary64 = 2047 * 2 ^ 52 := rfl
  have hne : n ≠ 0 := by
    intro h0
    rw [h0, Nat.log2_zero] at hlog
    omega
  have hleading : 2 ^ 52 ≤ n := by
    rw [← Nat.le_log2 hne]
    omega
  obtain ⟨hlow, hhigh⟩ := Format.nearCode_bounds .binary64 hlog
  have hleast : 2 ^ 52 ≤ Format.nearCode .binary64 n 1 := by
    apply Nat.le_trans _ hlow
    exact Nat.le_mul_of_pos_left (2 ^ 52) (Nat.succ_pos shift)
  have hmost : Format.nearCode .binary64 n 1 ≤ 13 * 2 ^ 52 :=
    Nat.le_trans hhigh (Nat.mul_le_mul_right (2 ^ 52) (Nat.add_le_add_right hshift 2))
  refine ⟨?_, hleast, hmost⟩
  have hroom : Format.nearCode .binary64 n 1 + 1074 * 2 ^ 52 < Format.infinityCode .binary64 := by
    omega
  exact Format.codeNear_mul_unit .binary64 hleading hroom

theorem exists_ofInt_magnitude {n : Nat} (hn : n < 2 ^ 64) :
    (Binary.ofInt n : Double).isFinite = true ∧
      ∃ m, Format.codeNear .binary64 m 1 = Format.codeNear .binary64 n 1 ∧
        (Binary.ofInt n : Double).magnitude = m * Format.unit .binary64 := by
  by_cases hfew : n < 2 ^ 53
  · obtain ⟨code, hcode, hlt⟩ := Binary.exists_code_of_lt (f := .binary64) hfew
    obtain ⟨hfinite, hmagnitude⟩ := Binary.ofInt_magnitude (n := n) hcode hlt
    exact ⟨hfinite, n, rfl, hmagnitude⟩
  · have hne : n ≠ 0 := by omega
    have hlow : 52 ≤ n.log2 := (Nat.le_log2 hne).2 (by omega)
    have hhigh : n.log2 < 64 := (Nat.log2_lt hne).2 hn
    obtain ⟨shift, hlog⟩ := Nat.exists_eq_add_of_le hlow
    obtain ⟨hcode, hleast, hmost⟩ := ofInt_code hlog (by omega)
    constructor
    · apply decide_eq_true
      rw [hcode]
      change _ < 2047 * 2 ^ 52
      omega
    · refine ⟨Format.quantaOf .binary64 (Format.nearCode .binary64 n 1), ?_, ?_⟩
      · exact Format.codeNear_quantaOf_eq_min .binary64 _
      · rw [Binary.magnitude, hcode, unit_eq]
        exact Format.quantaOf_add_mul .binary64 hleast 1074

theorem mul_least {n : Nat} (hn : n < 2 ^ 64) :
    (Binary.ofInt n : Double).mul (.ofBits 1) = .ofRatio false n 1 := by
  have hleast : (Binary.ofBits 1 : Double) = ⟨false, 1, by decide⟩ := by decide
  have hone : (⟨false, 1, by decide⟩ : Double).magnitude = 1 :=
    Format.quantaOf_of_lt .binary64 (by decide)
  have hfiniteOne : (⟨false, 1, by decide⟩ : Double).isFinite = true := by decide
  obtain ⟨hfinite, m, hm, hmagnitude⟩ := exists_ofInt_magnitude hn
  have hsign : (Binary.ofInt n : Double).negative = false := by
    rw [Binary.ofInt_natCast]
    rfl
  have hscaled := Format.codeNear_mul_right .binary64 m Nat.one_pos (Format.unit_pos .binary64)
  rw [Nat.one_mul, hm] at hscaled
  simp only [hleast, Binary.mul, Binary.isNaN_of_isFinite hfinite,
    Binary.isNaN_of_isFinite hfiniteOne, Binary.isInfinite_of_isFinite hfinite,
    Binary.isInfinite_of_isFinite hfiniteOne, hsign, hone, hmagnitude, Nat.mul_one,
    Bool.false_eq_true, ↓reduceIte, Bool.or_self, bne_self_eq_false]
  simp only [Binary.ofRatio, hscaled]

/-- Scaling the leading bits to their place gives the code of the whole number. -/
theorem scale_leading {n start : Nat} (hlog : n.log2 = start + 63) (hstart : 0 < start) :
    scale (.ofInt (jam n (2 ^ start))) (start - 1074) = .ofRatio false n 1 := by
  have hinf : Format.infinityCode .binary64 = 2047 * 2 ^ 52 := rfl
  have hleading : (jam n (2 ^ start)).log2 = 52 + 11 := log2_jam hlog
  obtain ⟨hcode, hleast, hmost⟩ := ofInt_code hleading (Nat.le_refl 11)
  have hsign : (Binary.ofInt (jam n (2 ^ start)) : Double).negative = false := by
    rw [Binary.ofInt_natCast]
    rfl
  have hscalable : Scalable (.ofInt (jam n (2 ^ start))) (start - 1074) :=
    ⟨hsign, by omega, by omega, by omega⟩
  have hjam := nearCode_jam hlog
  obtain ⟨hnegative, hscaled⟩ := scale_code hscalable (Format.nearCode .binary64 n 1)
    (by omega) (by omega)
  generalize scale (.ofInt (jam n (2 ^ start))) (start - 1074) = x at *
  obtain ⟨negative, code, hlt⟩ := x
  rw [Binary.ofRatio, Binary.mk.injEq]
  exact ⟨hnegative, hscaled⟩

theorem round_eq (magnitude : List UInt64) :
    round magnitude = .ofRatio false (Words.toNat magnitude) 1 := by
  rw [round.eq_def]
  cases htop : Words.top? magnitude with
  | none =>
    rw [Words.toNat_of_top?_none htop]
    change Binary.zero = Binary.ofRatio false 0 1
    decide
  | some place =>
    obtain ⟨hne, hlog⟩ := Words.log2_of_top? htop
    simp only [← hlog]
    by_cases hfew : (Words.toNat magnitude).log2 < 64
    · have hsmall : Words.toNat magnitude < 2 ^ 64 := (Nat.log2_lt hne).1 hfew
      have hfirst : (magnitude.getD 0 0).toNat = Words.toNat magnitude := by
        have hwords := Words.toNat_drop_eq magnitude 0
        rw [List.drop_zero] at hwords
        omega
      rw [if_pos hfew, hfirst]
      exact mul_least hsmall
    · obtain ⟨start, hstart⟩ : ∃ start, (Words.toNat magnitude).log2 = start + 63 :=
        ⟨(Words.toNat magnitude).log2 - 63, by omega⟩
      rw [if_neg hfew, hstart, Nat.add_sub_cancel, leading_toNat magnitude hstart]
      exact scale_leading hstart (by omega)

theorem magnitude_words (s : ExactSum) :
    Words.isNegative s.words = decide (s.quanta < 0) ∧
      Words.toNat (if Words.isNegative s.words then Words.negate s.words else s.words) =
        s.quanta.natAbs := by
  have hlt := Words.toNat_lt s.words
  have hiff := Words.isNegative_iff s.words
  have hquanta : s.quanta = if 2 * Words.toNat s.words < 2 ^ (64 * s.words.length)
      then (Words.toNat s.words : Int)
      else Words.toNat s.words - (2 ^ (64 * s.words.length) : Nat) := rfl
  cases hneg : Words.isNegative s.words with
  | true =>
    have hle := hiff.1 hneg
    have hne : Words.toNat s.words ≠ 0 := by omega
    rw [if_neg (by omega)] at hquanta
    rw [if_pos rfl, Words.toNat_negate hne, eq_comm, decide_eq_true_iff]
    omega
  | false =>
    have hnot : ¬2 ^ (64 * s.words.length) ≤ 2 * Words.toNat s.words := by
      rw [← hiff, hneg]
      exact Bool.false_ne_true
    rw [if_pos (by omega)] at hquanta
    rw [if_neg Bool.false_ne_true, eq_comm, decide_eq_false_iff_not]
    omega

theorem value_eq {s : ExactSum} (hpositive : s.positiveInfinities = 0)
    (hnegative : s.negativeInfinities = 0) :
    s.value = .ofRatio (decide (s.quanta < 0)) s.quanta.natAbs 1 := by
  obtain ⟨hsign, hmagnitude⟩ := s.magnitude_words
  have hnone : ¬0 > 0 := Nat.lt_irrefl 0
  rw [value.eq_def, hpositive, hnegative, if_neg hnone, if_neg hnone]
  simp only [round_eq]
  rw [hmagnitude, hsign]
  cases decide (s.quanta < 0) with
  | true => rfl
  | false => rfl

theorem ratio_quanta (q : Int) :
    Binary.ratio .binary64 (decide (q < 0)) q.natAbs 1 = (q / 2 ^ 1074 : ℚ) := by
  have hunit : (Format.unit .binary64 : ℚ) = 2 ^ 1074 := by
    rw [unit_eq, Nat.cast_pow, Nat.cast_ofNat]
  rw [Binary.ratio, hunit, Nat.cast_one, div_one, Nat.cast_natAbs, Int.cast_abs]
  by_cases hneg : q < 0
  · have hcast : (q : ℚ) < 0 := by exact_mod_cast hneg
    rw [decide_eq_true hneg, if_pos rfl, abs_of_neg hcast, neg_div, neg_mul_neg, one_mul]
  · have hcast : (0 : ℚ) ≤ q := by exact_mod_cast Int.not_lt.1 hneg
    rw [decide_eq_false hneg, if_neg Bool.false_ne_true, abs_of_nonneg hcast, one_mul]

theorem two_pow_le_codeNear {n : Nat} (hn : 2 ^ 52 ≤ n) :
    2 ^ 52 ≤ Format.codeNear .binary64 n 1 := by
  have hne : n ≠ 0 := by omega
  obtain ⟨shift, hshift⟩ := Nat.exists_eq_add_of_le ((Nat.le_log2 hne).2 hn)
  have hlow := (Format.nearCode_bounds .binary64 hshift).1
  apply Nat.le_min.2
  refine ⟨by decide, Nat.le_trans ?_ hlow⟩
  exact Nat.le_mul_of_pos_left (2 ^ 52) (Nat.succ_pos shift)

theorem codeNear_of_lt_two_pow {n : Nat} (hn : n < 2 ^ 52) : Format.codeNear .binary64 n 1 = n := by
  have hlt : n < Format.infinityCode .binary64 := Nat.lt_trans hn (by decide)
  rw [Format.codeNear_of_lt .binary64 hn, Nat.min_eq_right (Nat.le_of_lt hlt)]

/-- A value below the normal numbers is not rounded at all. -/
theorem toRat_of_code_lt {negative : Bool} {n : Nat}
    (h : (.ofRatio negative n 1 : Double).code < 2 ^ 52) :
    (.ofRatio negative n 1 : Double).toRat = Binary.ratio .binary64 negative n 1 := by
  have hn : n < 2 ^ 52 := by
    by_contra hle
    exact Nat.not_lt.2 (two_pow_le_codeNear (Nat.not_lt.1 hle)) h
  have hmagnitude : (.ofRatio negative n 1 : Double).magnitude = n := by
    change Format.quantaOf .binary64 (Format.codeNear .binary64 n 1) = n
    rw [codeNear_of_lt_two_pow hn]
    exact Format.quantaOf_of_lt .binary64 hn
  rw [Binary.toRat_eq, hmagnitude, Binary.ratio, Nat.cast_one, div_one]
  rfl

theorem codeNear_eq_zero_iff {n : Nat} : Format.codeNear .binary64 n 1 = 0 ↔ n = 0 := by
  by_cases hn : n < 2 ^ 52
  · rw [codeNear_of_lt_two_pow hn]
  · have hle := two_pow_le_codeNear (Nat.not_lt.1 hn)
    constructor <;> intro h <;> omega

/-- The value of a sum without infinities is the number nearest to its finite part, and infinities
of one sign are the value. -/
theorem value_isNearest (s : ExactSum) :
    (s.positiveInfinities = 0 → s.negativeInfinities = 0 →
      s.value.IsNearest (s.quanta / 2 ^ 1074) ∧
      (s.quanta ≠ 0 → ∀ x : Double, x.IsNearest (s.quanta / 2 ^ 1074) → x = s.value) ∧
      (s.value.isInfinite = true ↔ 2 ^ 1024 - 2 ^ 970 ≤ |(s.quanta / 2 ^ 1074 : ℚ)|) ∧
      (s.value.code < 2 ^ 52 → s.value.toRat = s.quanta / 2 ^ 1074) ∧
      (s.quanta = 0 → s.value = .zero) ∧ (s.quanta ≠ 0 → s.value.isZero = false)) ∧
    (0 < s.positiveInfinities → s.negativeInfinities = 0 → s.value = .infinity false) ∧
    (s.positiveInfinities = 0 → 0 < s.negativeInfinities → s.value = .infinity true) ∧
    (0 < s.positiveInfinities → 0 < s.negativeInfinities → s.value.isNaN = true) := by
  refine ⟨?_, ?_, ?_, ?_⟩
  · intro hpositive hnegative
    have hvalue := value_eq hpositive hnegative
    have hratio := ratio_quanta s.quanta
    have hnearest : s.value.IsNearest (s.quanta / 2 ^ 1074) := by
      rw [hvalue, ← hratio]
      exact Binary.ofRatio_isNearest _ _ Nat.one_pos
    refine ⟨hnearest, ?_, hnearest.isInfinite_iff, ?_, ?_, ?_⟩
    · intro hne x hx
      have hpos : (s.quanta / 2 ^ 1074 : ℚ) ≠ 0 := by
        apply div_ne_zero
        · exact_mod_cast hne
        · positivity
      exact hx.unique hnearest hpos
    · intro hcode
      rw [hvalue] at hcode ⊢
      rw [toRat_of_code_lt hcode, hratio]
    · intro hzero
      rw [hvalue, hzero]
      decide
    · intro hne
      rw [hvalue, Binary.isZero, beq_eq_false_iff_ne]
      change Format.codeNear .binary64 _ 1 ≠ 0
      rw [ne_eq, codeNear_eq_zero_iff]
      omega
  · intro hpositive hnegative
    rw [value.eq_def, if_pos hpositive, hnegative, if_neg (Nat.lt_irrefl 0)]
  · intro hpositive hnegative
    rw [value.eq_def, hpositive, if_neg (Nat.lt_irrefl 0), if_pos hnegative]
  · intro hpositive hnegative
    rw [value.eq_def, if_pos hpositive, if_pos hnegative]
    decide

theorem value_isNearest_of_tie :
    let s := (empty.add (.ofInt 1)).add (power (-53))
    s.positiveInfinities = 0 ∧ s.negativeInfinities = 0 ∧ s.value = .ofInt 1 ∧
      s.value.IsNearest (s.quanta / 2 ^ 1074) := by
  intro s
  have hpositive : s.positiveInfinities = 0 := by decide +kernel
  have hnegative : s.negativeInfinities = 0 := by decide +kernel
  obtain ⟨hfinite, -⟩ := value_isNearest s
  obtain ⟨hnearest, -⟩ := hfinite hpositive hnegative
  refine ⟨hpositive, hnegative, ?_, hnearest⟩
  rw [value_eq hpositive hnegative]
  decide +kernel

end ExactSum

end Tabular
