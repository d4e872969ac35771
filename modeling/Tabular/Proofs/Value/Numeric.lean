import Mathlib.Data.Int.ConditionallyCompleteOrder
import Mathlib.Data.Prod.Lex
import Tabular.Proofs.Binary.Extended
import Tabular.Value.Conversion

namespace Tabular

theorem limit_extended? :
    (Binary.ofInt 0x8000000000000000 : Double).extended? =
        some (((0x8000000000000000 : Int) : ℝ) : EReal) ∧
      (Binary.ofInt 0x8000000000000000 : Double).neg.extended? =
        some (((-0x8000000000000000 : Int) : ℝ) : EReal) := by
  have hneg : (Binary.ofInt 0x8000000000000000 : Double).neg =
      .ofInt (-0x8000000000000000) := by decide +kernel
  have hhigh : Format.quantaOf .binary64 (1086 * 2 ^ 52) =
      (0x8000000000000000 : Int).natAbs * Format.unit .binary64 := by decide +kernel
  have hlow : Format.quantaOf .binary64 (1086 * 2 ^ 52) =
      (-0x8000000000000000 : Int).natAbs * Format.unit .binary64 := by decide +kernel
  rw [hneg]
  exact ⟨Binary.ofInt_extended? hhigh (by decide), Binary.ofInt_extended? hlow (by decide)⟩

theorem compare_truncate {n : Int} {x : Double} (h : x.isFinite = true) :
    (match compare n x.truncate with
      | .eq =>
        if (Binary.ofInt x.truncate : Double).lt x then .lt
        else if x.lt (.ofInt x.truncate) then .gt else .eq
      | order => order) = cmp ((n : ℝ) : EReal) ((x.toRat : ℝ) : EReal) := by
  have hx := Binary.extended?_of_isFinite h
  have hwhole := Binary.ofInt_truncate h
  have hbelow := Binary.lt_iff hwhole hx
  have habove := Binary.lt_iff hx hwhole
  obtain ⟨hlow, hhigh⟩ := x.truncate_bounds
  rw [coe_intCast]
  -- an integer other than the whole part is at least one away from it, and the number less than one
  cases hcmp : compare n x.truncate with
  | lt =>
    have hlt : (n : ℚ) ≤ x.truncate - 1 := by
      exact_mod_cast Int.le_sub_one_of_lt (compare_lt_iff_lt.1 hcmp)
    have hless : (((n : ℚ) : ℝ) : EReal) < (x.toRat : ℝ) := by
      rw [EReal.coe_lt_coe_iff, Rat.cast_lt]
      linarith
    exact hless.cmp_eq_lt.symm
  | gt =>
    have hgt : (x.truncate : ℚ) + 1 ≤ n := by
      exact_mod_cast Int.add_one_le_of_lt (compare_gt_iff_gt.1 hcmp)
    have hmore : ((x.toRat : ℝ) : EReal) < ((n : ℚ) : ℝ) := by
      rw [EReal.coe_lt_coe_iff, Rat.cast_lt]
      linarith
    exact hmore.cmp_eq_gt.symm
  | eq =>
    rw [← coe_intCast, compare_eq_iff_eq.1 hcmp]
    by_cases hlt : ((x.truncate : ℝ) : EReal) < (x.toRat : ℝ)
    · rw [if_pos (hbelow.2 hlt), hlt.cmp_eq_lt]
    · by_cases hgt : ((x.toRat : ℝ) : EReal) < (x.truncate : ℝ)
      · rw [if_neg (mt hbelow.1 hlt), if_pos (habove.2 hgt), hgt.cmp_eq_gt]
      · have heq := le_antisymm (not_lt.1 hgt) (not_lt.1 hlt)
        rw [if_neg (mt hbelow.1 hlt), if_neg (mt habove.1 hgt), heq.cmp_eq_eq]

/-- An integer compares with a number like the extended real numbers, without being rounded. -/
theorem compareIntReal_eq_cmp (n : Int64) {x : Double} {r : EReal} (hx : x.extended? = some r) :
    compareIntReal n x = cmp ((n.toInt : ℝ) : EReal) r := by
  obtain ⟨hlimit, hlimit'⟩ := limit_extended?
  have hle := Binary.le_iff hlimit hx
  have hlt := Binary.lt_iff hx hlimit'
  have hmost : ((n.toInt : ℝ) : EReal) < ((0x8000000000000000 : Int) : ℝ) := by
    exact_mod_cast n.toInt_lt
  have hleast : (((-0x8000000000000000 : Int) : ℝ) : EReal) ≤ (n.toInt : ℝ) := by
    exact_mod_cast n.le_toInt
  rw [compareIntReal.eq_def]
  dsimp only
  rw [Binary.isNaN_of_extended? hx, Bool.false_or]
  by_cases hhigh : (((0x8000000000000000 : Int) : ℝ) : EReal) ≤ r
  · rw [if_pos (hle.2 hhigh), (hmost.trans_le hhigh).cmp_eq_lt]
  · rw [if_neg (mt hle.1 hhigh)]
    by_cases hlow : r < (((-0x8000000000000000 : Int) : ℝ) : EReal)
    · rw [if_pos (hlt.2 hlow), (hlow.trans_le hleast).cmp_eq_gt]
    · rw [if_neg (mt hlt.1 hlow)]
      rcases Binary.extended?_cases hx with ⟨hfinite, rfl⟩ | ⟨-, rfl⟩ | ⟨-, rfl⟩
      · exact compare_truncate hfinite
      · exact absurd (EReal.bot_lt_coe _) hlow
      · exact absurd le_top hhigh

theorem compareReals_eq_cmp {x y : Double} {r s : EReal} (hx : x.extended? = some r)
    (hy : y.extended? = some s) : compareReals x y = cmp r s := by
  rw [compareReals, Binary.compare?_eq_cmp hx hy, Option.getD_some]

theorem totalKey_bounds {x : Double} (h : x.isNaN = false) :
    -(Format.infinityCode .binary64 : Int) - 1 ≤ x.totalKey ∧
      x.totalKey ≤ Format.infinityCode .binary64 := by
  have hle : x.code ≤ Format.infinityCode .binary64 := Nat.not_lt.1 (of_decide_eq_false h)
  rw [Binary.totalKey]
  split <;> omega

theorem totalKey_of_isNaN {x : Double} (h : x.isNaN = true) :
    if x.negative then x.totalKey < -(Format.infinityCode .binary64 : Int) - 1
    else (Format.infinityCode .binary64 : Int) < x.totalKey := by
  have hlt : Format.infinityCode .binary64 < x.code := of_decide_eq_true h
  rw [Binary.totalKey]
  split <;> omega

/-- Next to a NaN the bit patterns decide. -/
theorem compareReals_of_isNaN {x y : Double} (h : x.isNaN = true ∨ y.isNaN = true) :
    compareReals x y = cmp x.totalKey y.totalKey := by
  have hnan : (x.isNaN || y.isNaN) = true := Bool.or_eq_true_iff.2 h
  rw [compareReals, Binary.compare?, if_pos hnan, Option.getD_none, Binary.totalCompare,
    cmp_eq_compare]

theorem compareReals_swap (x y : Double) : (compareReals x y).swap = compareReals y x := by
  by_cases h : x.isNaN = true ∨ y.isNaN = true
  · rw [compareReals_of_isNaN h, compareReals_of_isNaN h.symm, cmp_swap]
  · obtain ⟨hx, hy⟩ := not_or.1 h
    obtain ⟨r, hr⟩ := Binary.exists_extended? (Bool.eq_false_iff.2 hx)
    obtain ⟨s, hs⟩ := Binary.exists_extended? (Bool.eq_false_iff.2 hy)
    rw [compareReals_eq_cmp hr hs, compareReals_eq_cmp hs hr, cmp_swap]

namespace Numeric

/-- The extended real number that a number stands for; a NaN stands for none. -/
noncomputable def extended? : Numeric → Option EReal
  | whole n => some ((n.toInt : ℝ) : EReal)
  | real x => x.extended?

variable {m n : Numeric} {r s : EReal}

theorem compare_eq_cmp (hm : m.extended? = some r) (hn : n.extended? = some s) :
    m.compare n = cmp r s := by
  cases m with
  | whole m =>
    cases hm
    cases n with
    | whole n =>
      cases hn
      exact Tabular.compare_eq_cmp (by norm_cast) (by norm_cast)
    | real y => exact compareIntReal_eq_cmp m hn
  | real x =>
    cases n with
    | whole n =>
      cases hn
      rw [compare, compareIntReal_eq_cmp n hm, cmp_swap]
    | real y => exact compareReals_eq_cmp hm hn

theorem compare_swap (m n : Numeric) : (m.compare n).swap = n.compare m := by
  cases m with
  | whole m =>
    cases n with
    | whole n => exact Std.OrientedOrd.eq_swap.symm
    | real y => rfl
  | real x =>
    cases n with
    | whole n => exact Ordering.swap_swap
    | real y => exact compareReals_swap x y

def isWhole : Numeric → Bool
  | whole _ => true
  | real _ => false

def isNegativeNaN : Numeric → Bool
  | whole _ => false
  | real x => x.isNaN && x.negative

theorem exists_isNaN (h : m.extended? = none) : ∃ x, m = real x ∧ x.isNaN = true := by
  cases m with
  | whole m => cases h
  | real x =>
    refine ⟨x, rfl, ?_⟩
    by_contra hn
    obtain ⟨r, hr⟩ := Binary.exists_extended? (Bool.eq_false_iff.2 hn)
    have hnone : x.extended? = none := h
    rw [hr] at hnone
    cases hnone

theorem compare_of_isNaN {x : Double} (h : x.isNaN = true) (hn : n.extended? = some s) :
    (real x).compare n = if x.negative && !n.isWhole then .lt else .gt := by
  cases n with
  | whole n =>
    have hlt : compareIntReal n x = .lt := by
      rw [compareIntReal.eq_def]
      simp only [h, Bool.true_or, ↓reduceIte]
    simp only [compare, hlt, isWhole, Bool.not_true, Bool.and_false, Bool.false_eq_true, ↓reduceIte]
    rfl
  | real y =>
    have hkey := totalKey_of_isNaN h
    obtain ⟨hlow, hhigh⟩ := totalKey_bounds (Binary.isNaN_of_extended? hn)
    have hreals := compareReals_of_isNaN (x := x) (y := y) (.inl h)
    simp only [compare, isWhole, Bool.not_false, Bool.and_true]
    rw [hreals]
    cases hnegative : x.negative with
    | true =>
      rw [hnegative, if_pos rfl] at hkey
      exact (hkey.trans_le hlow).cmp_eq_lt
    | false =>
      rw [hnegative, if_neg Bool.false_ne_true] at hkey
      exact (hhigh.trans_lt hkey).cmp_eq_gt

/-- The place of a number: all but NaN values are at zero, in their own order. -/
noncomputable def rank : Numeric → Int ×ₗ EReal
  | whole n => toLex (0, ((n.toInt : ℝ) : EReal))
  | real x => if x.isNaN then toLex (x.totalKey, 0) else toLex (0, x.extended?.getD 0)

theorem rank_of_extended? (h : m.extended? = some r) : m.rank = toLex (0, r) := by
  cases m with
  | whole m =>
    cases h
    rfl
  | real x =>
    have hx : x.extended? = some r := h
    rw [rank, Binary.isNaN_of_extended? hx, if_neg Bool.false_ne_true, hx, Option.getD_some]

theorem rank_of_isNaN {x : Double} (h : x.isNaN = true) :
    (real x).rank = toLex (x.totalKey, 0) := by
  rw [rank, if_pos h]

theorem cmp_rank_of_isNaN {x : Double} (h : x.isNaN = true) (hn : n.extended? = some s) :
    cmp (real x).rank n.rank = if x.negative then .lt else .gt := by
  have hkey := totalKey_of_isNaN h
  rw [rank_of_isNaN h, rank_of_extended? hn]
  cases hnegative : x.negative with
  | true =>
    rw [hnegative, if_pos rfl] at hkey
    have hlt : x.totalKey < 0 := by omega
    exact (Prod.Lex.toLex_lt_toLex.2 (.inl hlt)).cmp_eq_lt
  | false =>
    rw [hnegative, if_neg Bool.false_ne_true] at hkey
    have hgt : 0 < x.totalKey := by omega
    exact (Prod.Lex.toLex_lt_toLex.2 (.inl hgt)).cmp_eq_gt

/-- Whether an integer meets a negative NaN, which it is below although all numbers are above it. -/
def Clashes (m n : Numeric) : Prop := m.isWhole = true ∧ n.isNegativeNaN = true

theorem compare_eq_cmp_rank_of_isNaN {x : Double} (hx : x.isNaN = true) (hn : n.extended? = some s)
    (h : ¬n.Clashes (real x)) : (real x).compare n = cmp (real x).rank n.rank := by
  rw [compare_of_isNaN hx hn, cmp_rank_of_isNaN hx hn]
  cases hnegative : x.negative with
  | false => rw [Bool.false_and]
  | true =>
    have hwhole : n.isWhole = false := by
      rw [← Bool.not_eq_true]
      intro hwhole
      apply h
      refine ⟨hwhole, ?_⟩
      rw [isNegativeNaN, hx, hnegative, Bool.and_self]
    rw [hwhole]
    rfl

theorem toLex_value_strictMono : StrictMono fun r : EReal => toLex ((0 : Int), r) := by
  intro r s hlt
  exact Prod.Lex.toLex_lt_toLex.2 (.inr ⟨rfl, hlt⟩)

theorem toLex_key_strictMono : StrictMono fun k : Int => toLex (k, (0 : EReal)) := by
  intro k l hlt
  exact Prod.Lex.toLex_lt_toLex.2 (.inl hlt)

/-- Numbers compare by their places, but for an integer and a negative NaN. -/
theorem compare_eq_cmp_rank (hmn : ¬m.Clashes n) (hnm : ¬n.Clashes m) :
    m.compare n = cmp m.rank n.rank := by
  cases hm : m.extended? with
  | some r =>
    cases hn : n.extended? with
    | some s =>
      rw [compare_eq_cmp hm hn, rank_of_extended? hm, rank_of_extended? hn]
      exact (toLex_value_strictMono.cmp_map_eq r s).symm
    | none =>
      obtain ⟨y, rfl, hy⟩ := exists_isNaN hn
      rw [← compare_swap, compare_eq_cmp_rank_of_isNaN hy hm hmn, cmp_swap]
  | none =>
    obtain ⟨x, rfl, hx⟩ := exists_isNaN hm
    cases hn : n.extended? with
    | some s => exact compare_eq_cmp_rank_of_isNaN hx hn hnm
    | none =>
      obtain ⟨y, rfl, hy⟩ := exists_isNaN hn
      rw [rank_of_isNaN hx, rank_of_isNaN hy]
      exact (compareReals_of_isNaN (.inl hx)).trans (toLex_key_strictMono.cmp_map_eq _ _).symm

end Numeric

end Tabular
