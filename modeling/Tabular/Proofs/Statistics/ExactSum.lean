import Mathlib.Algebra.BigOperators.Group.Multiset.Basic
import Tabular.Proofs.Binary.Exact
import Tabular.Proofs.Statistics.Words

namespace Tabular.ExactSum

/-- The finite part in quanta: the words read as a two's complement integer. -/
def quanta (s : ExactSum) : Int :=
  let n := Words.toNat s.words
  let modulus := 2 ^ (64 * s.words.length)
  if 2 * n < modulus then n else (n : Int) - modulus

/-- The exact sum of the finite numbers among some numbers, in quanta. -/
def finiteQuanta (numbers : Multiset Double) : Int :=
  ((numbers.filter fun x => x.isFinite = true).map Binary.quanta).sum

theorem finiteQuanta_cons {x : Double} (hx : x.isFinite = true) (numbers : Multiset Double) :
    finiteQuanta (x ::ₘ numbers) = finiteQuanta numbers + x.quanta := by
  have hfilter := Multiset.filter_cons_of_pos (p := fun x : Double => x.isFinite = true) numbers hx
  rw [finiteQuanta, hfilter, Multiset.map_cons, Multiset.sum_cons, Int.add_comm, finiteQuanta]

theorem finiteQuanta_cons_of_not {x : Double} (hx : x.isFinite = false)
    (numbers : Multiset Double) : finiteQuanta (x ::ₘ numbers) = finiteQuanta numbers := by
  have hfilter := Multiset.filter_cons_of_neg (p := fun x : Double => x.isFinite = true) numbers
    (Bool.not_eq_true _ ▸ hx)
  rw [finiteQuanta, hfilter, finiteQuanta]

theorem finiteQuanta_add (numbers others : Multiset Double) :
    finiteQuanta (numbers + others) = finiteQuanta numbers + finiteQuanta others := by
  rw [finiteQuanta, Multiset.filter_add, Multiset.map_add, Multiset.sum_add, finiteQuanta,
    finiteQuanta]

/-- An exact sum holds the sum of some numbers other than NaN. -/
structure Summarizes (s : ExactSum) (numbers : Multiset Double) : Prop where
  length : s.words.length = wordCount
  finite : (Words.toNat s.words : Int) ≡ finiteQuanta numbers [ZMOD 2 ^ (64 * wordCount)]
  positive : s.positiveInfinities = numbers.count (.infinity false)
  negative : s.negativeInfinities = numbers.count (.infinity true)

theorem Summarizes.empty : Summarizes .empty 0 where
  length := List.length_replicate
  finite := by
    simp only [ExactSum.empty, Words.toNat_replicate_zero]
    rfl
  positive := rfl
  negative := rfl

theorem modulus_cast : (2 : Int) ^ (64 * wordCount) = (2 ^ (64 * wordCount) : Nat) := by
  rw [Nat.cast_pow, Nat.cast_ofNat]

/-- Sums are equal, word by word, exactly if their finite parts agree as far as the words reach and
they count the same infinities. -/
theorem Summarizes.eq_iff {s t : ExactSum} {numbers others : Multiset Double}
    (hs : s.Summarizes numbers) (ht : t.Summarizes others) :
    s = t ↔ finiteQuanta numbers ≡ finiteQuanta others [ZMOD 2 ^ (64 * wordCount)] ∧
      numbers.count (.infinity false) = others.count (.infinity false) ∧
      numbers.count (.infinity true) = others.count (.infinity true) := by
  constructor
  · rintro rfl
    refine ⟨hs.finite.symm.trans ht.finite, ?_, ?_⟩
    · exact hs.positive.symm.trans ht.positive
    · exact hs.negative.symm.trans ht.negative
  · rintro ⟨hfinite, hpositive, hnegative⟩
    obtain ⟨sw, sp, sn⟩ := s
    obtain ⟨tw, tp, tn⟩ := t
    have hws := Words.toNat_lt sw
    have hwt := Words.toNat_lt tw
    rw [hs.length] at hws
    rw [ht.length] at hwt
    have hmod : Words.toNat sw ≡ Words.toNat tw [MOD 2 ^ (64 * wordCount)] := by
      have h := (hs.finite.trans hfinite).trans ht.finite.symm
      rw [modulus_cast] at h
      exact Int.natCast_modEq_iff.1 h
    have hwords : sw = tw := by
      apply Words.toNat_injective (hs.length.trans ht.length.symm)
      exact Nat.ModEq.eq_of_lt_of_lt hmod hws hwt
    have hp : sp = tp := (hs.positive.trans hpositive).trans ht.positive.symm
    have hn : sn = tn := (hs.negative.trans hnegative).trans ht.negative.symm
    rw [hwords, hp, hn]

theorem Summarizes.unique {s t : ExactSum} {numbers : Multiset Double}
    (hs : s.Summarizes numbers) (ht : t.Summarizes numbers) : s = t :=
  (hs.eq_iff ht).2 ⟨rfl, rfl, rfl⟩

theorem scaled_magnitude (x : Double) :
    (scaled x).1 * 2 ^ (scaled x).2 = x.magnitude ∧ (scaled x).1 < 2 ^ 53 ∧
      (scaled x).2 < 2 ^ 11 - 1 := by
  have hcode := x.code_lt
  have hfraction := Nat.mod_lt x.code (Nat.two_pow_pos 52)
  have hexponent : x.code / 2 ^ 52 < 2 ^ 11 := Nat.div_lt_of_lt_mul hcode
  unfold scaled Binary.magnitude Format.quantaOf
  simp only [Format.fractionWidth, Nat.pow_eq]
  by_cases he : x.code / 2 ^ 52 = 0
  · simp only [he, ↓reduceIte, Nat.pow_zero, Nat.mul_one, true_and]
    omega
  · simp only [he, ↓reduceIte, true_and]
    omega

theorem placed_toNat {significand offset : Nat} (hs : significand < 2 ^ 53) (ho : offset < 64) :
    Words.toNat (placed significand offset) = significand * 2 ^ offset := by
  have hsignificand : significand.toUInt64.toNat = significand :=
    UInt64.toNat_ofNat_of_lt' (hs.trans (by decide))
  have hlow : (significand.toUInt64 <<< offset.toUInt64).toNat =
      significand * 2 ^ offset % 2 ^ 64 := by
    rw [UInt64.toNat_shiftLeft, hsignificand, Words.toUInt64_toNat_mod ho, Nat.shiftLeft_eq]
  have hhigh : (if offset = 0 then 0
      else significand.toUInt64 >>> (64 - offset).toUInt64).toNat =
        significand * 2 ^ offset / 2 ^ 64 := by
    split
    · next h0 =>
      rw [h0, UInt64.toNat_zero, Nat.div_eq_of_lt (by omega)]
    · next h0 =>
      rw [UInt64.toNat_shiftRight, hsignificand, Words.toUInt64_toNat_mod (by omega),
        Nat.shiftRight_eq_div_pow, Words.two_pow_offset (Nat.le_of_lt ho),
        Nat.mul_div_mul_right _ _ (Nat.two_pow_pos offset)]
  simp only [placed, Words.toNat, hlow, hhigh]
  omega

theorem addFinite_words {s : ExactSum} (hlen : s.words.length = wordCount) (x : Double) :
    (s.addFinite x).words.length = wordCount ∧
      (Words.toNat (s.addFinite x).words : Int) ≡
        Words.toNat s.words + x.quanta [ZMOD 2 ^ (64 * wordCount)] := by
  obtain ⟨hmag, hsignificand, hshift⟩ := scaled_magnitude x
  have hquanta : x.quanta = if x.negative then -(x.magnitude : Int) else x.magnitude := rfl
  unfold addFinite
  generalize scaled x = p at *
  obtain ⟨significand, shift⟩ := p
  simp only at hmag hsignificand hshift ⊢
  split
  · next h0 =>
    rw [h0, Nat.zero_mul] at hmag
    refine ⟨hlen, ?_⟩
    rw [hquanta, ← hmag]
    simp
  · have hplace : shift / 64 + 2 ≤ s.words.length := by
      rw [hlen, wordCount]
      omega
    have hparts := placed_toNat hsignificand (Nat.mod_lt shift (by decide))
    have hscaled : 2 ^ (64 * (shift / 64)) * Words.toNat (placed significand (shift % 64)) =
        x.magnitude := by
      rw [hparts, ← hmag, Nat.mul_left_comm, ← Nat.pow_add, Nat.div_add_mod]
    have hlength : ∀ upper : List UInt64, upper.length = (s.words.drop (shift / 64)).length →
        (s.words.take (shift / 64) ++ upper).length = wordCount := by
      intro upper h
      rw [List.length_append, h, ← List.length_append, List.take_append_drop, hlen]
    cases hn : x.negative with
    | true =>
      have hsub := Words.sub_at_modEq s.words (placed significand (shift % 64)) hplace
      rw [hscaled, hlen] at hsub
      simp only [hquanta, hn, ↓reduceIte]
      exact ⟨hlength _ (Words.length_sub _ _ _), hsub⟩
    | false =>
      have hadd := Words.add_at_modEq s.words (placed significand (shift % 64)) hplace
      rw [hscaled, hlen] at hadd
      simp only [hquanta, hn, Bool.false_eq_true, ↓reduceIte]
      exact ⟨hlength _ (Words.length_add _ _ _), hadd⟩

theorem Summarizes.addFinite {s : ExactSum} {numbers : Multiset Double} (hs : s.Summarizes numbers)
    {x : Double} (hx : x.isFinite = true) : (s.addFinite x).Summarizes (x ::ₘ numbers) := by
  obtain ⟨hlen, hwords⟩ := addFinite_words hs.length x
  have hcount : ∀ negative, (x ::ₘ numbers).count (.infinity negative) =
      numbers.count (.infinity negative) := by
    intro negative
    apply Multiset.count_cons_of_ne
    intro he
    rw [← he, Binary.infinity_isFinite] at hx
    cases hx
  have hinfinities : (s.addFinite x).positiveInfinities = s.positiveInfinities ∧
      (s.addFinite x).negativeInfinities = s.negativeInfinities := by
    unfold ExactSum.addFinite
    split
    split <;> exact ⟨rfl, rfl⟩
  refine ⟨hlen, ?_, ?_, ?_⟩
  · rw [finiteQuanta_cons hx]
    exact hwords.trans (hs.finite.add_right _)
  · rw [hcount, hinfinities.1, hs.positive]
  · rw [hcount, hinfinities.2, hs.negative]

theorem Summarizes.addInfinity {s : ExactSum} {numbers : Multiset Double}
    (hs : s.Summarizes numbers) (negative : Bool) :
    (s.add (.infinity negative)).Summarizes (.infinity negative ::ₘ numbers) := by
  have hfinite := finiteQuanta_cons_of_not (Binary.infinity_isFinite negative) numbers
  have hinfinite : (Binary.infinity negative : Double).isInfinite = true := beq_self_eq_true _
  have hsign : (Binary.infinity negative : Double).negative = negative := rfl
  have hother : (Binary.infinity (!negative) : Double) ≠ .infinity negative := by
    intro he
    have hnot := congrArg Binary.negative he
    simp [Binary.infinity] at hnot
  have hsame := Multiset.count_cons_self (Binary.infinity negative : Double) numbers
  have hdifferent := Multiset.count_cons_of_ne hother numbers
  rw [ExactSum.add, if_pos hinfinite, hsign]
  cases negative with
  | true =>
    refine ⟨hs.length, ?_, ?_, ?_⟩
    · rw [hfinite]
      exact hs.finite
    · exact hs.positive.trans hdifferent.symm
    · rw [hsame, ← hs.negative]
      rfl
  | false =>
    refine ⟨hs.length, ?_, ?_, ?_⟩
    · rw [hfinite]
      exact hs.finite
    · rw [hsame, ← hs.positive]
      rfl
    · exact hs.negative.trans hdifferent.symm

theorem Summarizes.add {s : ExactSum} {numbers : Multiset Double} (hs : s.Summarizes numbers)
    {x : Double} (hx : x.isNaN = false) : (s.add x).Summarizes (x ::ₘ numbers) := by
  cases hi : x.isInfinite with
  | true =>
    rw [Binary.eq_infinity hi]
    exact hs.addInfinity _
  | false =>
    rw [ExactSum.add, if_neg (by rw [hi]; exact Bool.false_ne_true)]
    exact hs.addFinite (Binary.isFinite_of_not hx hi)

theorem Summarizes.merge {s t : ExactSum} {numbers others : Multiset Double}
    (hs : s.Summarizes numbers) (ht : t.Summarizes others) :
    (s.merge t).Summarizes (numbers + others) where
  length := (Words.length_add _ _ _).trans hs.length
  finite := by
    have hadd := Words.add_modEq s.words t.words (by rw [hs.length, ht.length])
    rw [hs.length] at hadd
    rw [finiteQuanta_add]
    exact hadd.trans (hs.finite.add ht.finite)
  positive := by rw [Multiset.count_add, ← hs.positive, ← ht.positive, ExactSum.merge]
  negative := by rw [Multiset.count_add, ← hs.negative, ← ht.negative, ExactSum.merge]

end Tabular.ExactSum
