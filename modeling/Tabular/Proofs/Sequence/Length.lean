import Mathlib.Algebra.Order.BigOperators.Group.List
import Mathlib.Algebra.Order.Floor.Div
import Tabular.Proofs.Word
import Tabular.Sequence.Length

namespace Tabular

theorem map_range_ite {k n : Nat} (h : k ≤ n) (a b : Nat) :
    (List.range n).map (fun i => if i < k then a else b) =
      List.replicate k a ++ List.replicate (n - k) b := by
  obtain ⟨m, rfl⟩ := Nat.exists_eq_add_of_le h
  rw [List.range_add, List.map_append, List.map_map, Nat.add_sub_cancel_left]
  congr 1
  · refine List.eq_replicate_iff.2 ⟨by simp, fun l hl => ?_⟩
    obtain ⟨i, hi, rfl⟩ := List.mem_map.1 hl
    exact if_pos (List.mem_range.1 hi)
  · refine List.eq_replicate_iff.2 ⟨by simp, fun l hl => ?_⟩
    obtain ⟨i, -, rfl⟩ := List.mem_map.1 hl
    exact if_neg (Nat.not_lt.2 (Nat.le_add_right k i))

theorem ceilDiv_pos {n size : Nat} (hsize : 0 < size) (hn : 0 < n) : 0 < n ⌈/⌉ size := by
  by_contra hzero
  have hle := (ceilDiv_le_iff_le_mul hsize).1 (Nat.not_lt.1 hzero)
  omega

/-- One piece fewer would not take all steps. -/
theorem mul_pred_ceilDiv_lt {n size : Nat} (hsize : 0 < size) (hn : 0 < n) :
    size * (n ⌈/⌉ size - 1) < n := by
  by_contra hle
  have hfewer := (ceilDiv_le_iff_le_mul hsize).2 (Nat.not_lt.1 hle)
  have hpos := ceilDiv_pos hsize hn
  omega

namespace LengthSplit

variable {s : LengthSplit} {n : Nat}

theorem maxLength_pos (s : LengthSplit) : 0 < s.maxLength := s.size_pos

theorem pieceCount_eq_ceilDiv (n : Nat) {size : Nat} (hsize : 0 < size) :
    pieceCount n size = n ⌈/⌉ size := by
  have hdiv := Nat.div_add_mod n size
  apply le_antisymm
  · rw [pieceCount]
    have hle : n ≤ size * (n ⌈/⌉ size) := (ceilDiv_le_iff_le_mul hsize).1 le_rfl
    split
    · exact Nat.div_le_of_le_mul hle
    · next hrest =>
      apply Nat.lt_of_mul_lt_mul_left (a := size)
      omega
  · rw [ceilDiv_le_iff_le_mul hsize, pieceCount]
    have hmod := Nat.mod_lt n hsize
    split
    · omega
    · rw [Nat.mul_succ]
      omega

theorem pieceLengths_of_le (h : n ≤ s.maxLength) : s.pieceLengths n = [n] := if_pos h

theorem pieceLengths_of_equal (hequal : s.equal = true) (h : s.maxLength < n) :
    s.pieceLengths n =
      List.replicate (n % (n ⌈/⌉ s.maxLength)) (n / (n ⌈/⌉ s.maxLength) + 1) ++
        List.replicate (n ⌈/⌉ s.maxLength - n % (n ⌈/⌉ s.maxLength)) (n / (n ⌈/⌉ s.maxLength)) := by
  have hpos := ceilDiv_pos s.maxLength_pos (Nat.zero_lt_of_lt h)
  rw [pieceLengths, if_neg (Nat.not_le.2 h), pieceCount_eq_ceilDiv n s.maxLength_pos]
  simp only [hequal, ↓reduceIte]
  exact map_range_ite (Nat.mod_lt n hpos).le _ _

theorem pieceLengths_of_not_equal (hequal : s.equal = false) (h : s.maxLength < n) :
    s.pieceLengths n = List.replicate (n ⌈/⌉ s.maxLength - 1) s.maxLength ++
      [n - s.maxLength * (n ⌈/⌉ s.maxLength - 1)] := by
  have hpos : 0 < n ⌈/⌉ s.maxLength := ceilDiv_pos s.maxLength_pos (Nat.zero_lt_of_lt h)
  have hlast : n ⌈/⌉ s.maxLength - (n ⌈/⌉ s.maxLength - 1) = 1 := by omega
  have hfull : ∀ i, i + 1 < n ⌈/⌉ s.maxLength ↔ i < n ⌈/⌉ s.maxLength - 1 := by omega
  rw [pieceLengths, if_neg (Nat.not_le.2 h), pieceCount_eq_ceilDiv n s.maxLength_pos]
  simp only [hequal, Bool.false_eq_true, ↓reduceIte, hfull]
  rw [map_range_ite (Nat.sub_le _ 1), hlast, List.replicate_one]

/-- The lengths of the pieces of `n` steps. -/
structure Cuts (s : LengthSplit) (n : Nat) (lengths : List Nat) : Prop where
  sum : lengths.sum = n
  count : lengths.length = max 1 (n ⌈/⌉ s.maxLength)
  fewest : ∀ others : List Nat, others ≠ [] → others.sum = n → (∀ l ∈ others, l ≤ s.maxLength) →
    lengths.length ≤ others.length
  le : ∀ l ∈ lengths, l ≤ s.maxLength
  pos : n ≠ 0 → ∀ l ∈ lengths, 1 ≤ l
  empty : n = 0 → lengths = [0]
  descending : s.equal = true → lengths.Pairwise (· ≥ ·)
  close : s.equal = true → ∀ l ∈ lengths, ∀ m ∈ lengths, l ≤ m + 1
  full : s.equal = false → s.maxLength < n → ∀ l ∈ lengths.dropLast, l = s.maxLength

/-- Pieces within the maximum are at least as many as the quotient, and there is always one. -/
theorem fewest_of_count {lengths : List Nat} (hcount : lengths.length = max 1 (n ⌈/⌉ s.maxLength))
    {others : List Nat} (hne : others ≠ []) (hsum : others.sum = n)
    (hle : ∀ l ∈ others, l ≤ s.maxLength) : lengths.length ≤ others.length := by
  have hone : 1 ≤ others.length := List.length_pos_iff.2 hne
  have hroom : others.sum ≤ others.length • s.maxLength := List.sum_le_card_nsmul _ _ hle
  have hceil : n ⌈/⌉ s.maxLength ≤ others.length := by
    rw [ceilDiv_le_iff_le_mul s.maxLength_pos, ← hsum, mul_comm]
    exact hroom
  rw [hcount]
  exact max_le hone hceil

theorem cuts_single (h : n ≤ s.maxLength) : s.Cuts n [n] := by
  have hcount : [n].length = max 1 (n ⌈/⌉ s.maxLength) := by
    have hceil : n ⌈/⌉ s.maxLength ≤ 1 := by rwa [ceilDiv_le_iff_le_mul s.maxLength_pos, mul_one]
    rw [List.length_singleton, max_eq_left hceil]
  exact {
    sum := List.sum_singleton
    count := hcount
    fewest := fun _ => fewest_of_count hcount
    le := by simpa using h
    pos := fun hn => by simpa using Nat.one_le_iff_ne_zero.2 hn
    empty := fun hn => by rw [hn]
    descending := fun _ => List.pairwise_singleton _ _
    close := fun _ => by simp
    full := fun _ hlt => absurd h (Nat.not_le.2 hlt) }

theorem cuts_equal (hequal : s.equal = true) (h : s.maxLength < n) :
    s.Cuts n (s.pieceLengths n) := by
  have hpos : 0 < n ⌈/⌉ s.maxLength := ceilDiv_pos s.maxLength_pos (Nat.zero_lt_of_lt h)
  have hroom : n ≤ s.maxLength * (n ⌈/⌉ s.maxLength) :=
    (ceilDiv_le_iff_le_mul s.maxLength_pos).1 le_rfl
  have hmany : s.maxLength * (n ⌈/⌉ s.maxLength - 1) < n :=
    mul_pred_ceilDiv_lt s.maxLength_pos (Nat.zero_lt_of_lt h)
  rw [pieceLengths_of_equal hequal h]
  generalize hcount : n ⌈/⌉ s.maxLength = count at *
  have hdiv := Nat.div_add_mod n count
  have hmod := Nat.mod_lt n hpos
  have hle : n / count ≤ s.maxLength := Nat.div_le_of_le_mul (by rwa [mul_comm] at hroom)
  have hlonger : n % count ≠ 0 → n / count + 1 ≤ s.maxLength := by
    intro hrest
    apply Nat.lt_of_mul_lt_mul_left (a := count)
    rw [mul_comm count s.maxLength]
    omega
  have hone : 1 ≤ n / count := by
    have hfew : count - 1 ≤ s.maxLength * (count - 1) := Nat.le_mul_of_pos_left _ s.maxLength_pos
    exact Nat.div_pos (by omega) hpos
  have hmem : ∀ l, l ∈ List.replicate (n % count) (n / count + 1) ++
      List.replicate (count - n % count) (n / count) →
        l = n / count ∨ l = n / count + 1 ∧ n % count ≠ 0 := by
    intro l hl
    rcases List.mem_append.1 hl with hl | hl
    · exact .inr ⟨(List.mem_replicate.1 hl).2, (List.mem_replicate.1 hl).1⟩
    · exact .inl (List.mem_replicate.1 hl).2
  have hlength : (List.replicate (n % count) (n / count + 1) ++
      List.replicate (count - n % count) (n / count)).length = max 1 (n ⌈/⌉ s.maxLength) := by
    rw [List.length_append, List.length_replicate, List.length_replicate, hcount]
    omega
  exact {
    sum := by
      rw [List.sum_append, List.sum_replicate, List.sum_replicate, smul_eq_mul, smul_eq_mul,
        Nat.mul_succ, Nat.sub_mul]
      have hpart : n % count * (n / count) ≤ count * (n / count) :=
        Nat.mul_le_mul_right _ hmod.le
      omega
    count := hlength
    fewest := fun _ => fewest_of_count hlength
    le := by
      intro l hl
      rcases hmem l hl with rfl | ⟨rfl, hrest⟩
      · exact hle
      · exact hlonger hrest
    pos := by
      intro _ l hl
      rcases hmem l hl with rfl | ⟨rfl, -⟩ <;> omega
    empty := fun hn => absurd h (by omega)
    descending := by
      intro _
      refine List.pairwise_append.2 ⟨?_, ?_, ?_⟩
      · exact List.pairwise_replicate.2 (.inr le_rfl)
      · exact List.pairwise_replicate.2 (.inr le_rfl)
      · intro l hl m hm
        rw [(List.mem_replicate.1 hl).2, (List.mem_replicate.1 hm).2]
        exact Nat.le_succ _
    close := by
      intro _ l hl m hm
      rcases hmem l hl with rfl | ⟨rfl, -⟩ <;> rcases hmem m hm with rfl | ⟨rfl, -⟩ <;> omega
    full := fun hnot => absurd hequal (by simp [hnot]) }

theorem cuts_not_equal (hequal : s.equal = false) (h : s.maxLength < n) :
    s.Cuts n (s.pieceLengths n) := by
  have hpos : 0 < n ⌈/⌉ s.maxLength := ceilDiv_pos s.maxLength_pos (Nat.zero_lt_of_lt h)
  have hroom : n ≤ s.maxLength * (n ⌈/⌉ s.maxLength) :=
    (ceilDiv_le_iff_le_mul s.maxLength_pos).1 le_rfl
  have hmany : s.maxLength * (n ⌈/⌉ s.maxLength - 1) < n :=
    mul_pred_ceilDiv_lt s.maxLength_pos (Nat.zero_lt_of_lt h)
  rw [pieceLengths_of_not_equal hequal h]
  obtain ⟨full, hcount⟩ := Nat.exists_eq_add_one.2 hpos
  rw [hcount, Nat.add_sub_cancel] at hmany ⊢
  rw [hcount, Nat.mul_succ] at hroom
  have hmem : ∀ l, l ∈ List.replicate full s.maxLength ++ [n - s.maxLength * full] →
      l = s.maxLength ∨ l = n - s.maxLength * full := by
    intro l hl
    rcases List.mem_append.1 hl with hl | hl
    · exact .inl (List.mem_replicate.1 hl).2
    · exact .inr (List.mem_singleton.1 hl)
  have hlength : (List.replicate full s.maxLength ++ [n - s.maxLength * full]).length =
      max 1 (n ⌈/⌉ s.maxLength) := by
    rw [List.length_append, List.length_replicate, List.length_singleton, hcount]
    omega
  exact {
    sum := by
      rw [List.sum_append, List.sum_replicate, List.sum_singleton, smul_eq_mul,
        mul_comm full s.maxLength]
      omega
    count := hlength
    fewest := fun _ => fewest_of_count hlength
    le := by
      intro l hl
      rcases hmem l hl with rfl | rfl <;> omega
    pos := by
      intro _ l hl
      rcases hmem l hl with rfl | rfl
      · exact s.maxLength_pos
      · omega
    empty := fun hn => absurd h (by omega)
    descending := fun hyes => absurd hyes (by simp [hequal])
    close := fun hyes => absurd hyes (by simp [hequal])
    full := by
      intro _ _ l hl
      rw [List.dropLast_concat] at hl
      exact (List.mem_replicate.1 hl).2 }

theorem cuts_pieceLengths (s : LengthSplit) (n : Nat) : s.Cuts n (s.pieceLengths n) := by
  rcases Nat.lt_or_ge s.maxLength n with h | h
  · cases hequal : s.equal with
    | true => exact cuts_equal hequal h
    | false => exact cuts_not_equal hequal h
  · rw [pieceLengths_of_le h]
    exact cuts_single h

section Words

/-- The number of pieces of `n` steps, computed in words. -/
def wordCount? (n size : UInt64) : Option UInt64 :=
  if size = 0 then none
  else if n % size = 0 then some (n / size)
  else word? ((n / size).toNat + 1)

/-- The length of one of `pieces` pieces of `n` steps, computed in words. -/
def wordLength? (s : LengthSplit) (n pieces i : UInt64) : Option UInt64 :=
  if s.equal then
    if pieces = 0 then none
    else if i < n % pieces then word? ((n / pieces).toNat + 1)
    else some (n / pieces)
  else do
    let next ← word? (i.toNat + 1)
    if next < pieces then return s.size
    else
      let full ← word? (pieces.toNat - 1)
      let before ← word? (s.size.toNat * full.toNat)
      word? (n.toNat - before.toNat)

/-- The lengths of the pieces of `n` steps, computed in words: no sum, difference or product may
leave them and nothing may be divided by zero. -/
def wordLengths? (s : LengthSplit) (n : UInt64) : Option (List UInt64) :=
  if n ≤ s.size then some [n]
  else do
    let pieces ← wordCount? n s.size
    (List.range pieces.toNat).mapM fun i => s.wordLength? n pieces i.toUInt64

theorem wordCount?_eq {n size : UInt64} (hsize : 0 < size.toNat) :
    wordCount? n size = some (pieceCount n.toNat size.toNat).toUInt64 := by
  have hne : size ≠ 0 := fun h => hsize.ne' (UInt64.toNat_inj.2 h)
  have hrest : n % size = 0 ↔ n.toNat % size.toNat = 0 := by
    rw [← UInt64.toNat_inj, UInt64.toNat_mod]
    rfl
  rw [wordCount?, if_neg hne, pieceCount]
  by_cases hzero : n.toNat % size.toNat = 0
  · rw [if_pos hzero, if_pos (hrest.2 hzero), ← UInt64.toNat_div]
    exact congrArg some UInt64.ofNat_toNat.symm
  · have hdiv := Nat.div_add_mod n.toNat size.toNat
    have hle := Nat.le_mul_of_pos_left (n.toNat / size.toNat) hsize
    have hn := n.toNat_lt
    rw [if_neg hzero, if_neg (mt hrest.1 hzero), UInt64.toNat_div]
    exact word?_eq rfl (by omega)

theorem wordLength?_of_equal (hequal : s.equal = true) {n : UInt64} {count i : Nat}
    (htwo : 2 ≤ count) (hcount : count < 2 ^ 64) (hi : i < count) :
    s.wordLength? n count.toUInt64 i.toUInt64 =
      some (if i < n.toNat % count then n.toNat / count + 1 else n.toNat / count).toUInt64 := by
  have hpieces : count.toUInt64.toNat = count := UInt64.toNat_ofNat_of_lt' hcount
  have hne : count.toUInt64 ≠ 0 := by
    rw [Ne, ← UInt64.toNat_inj, hpieces]
    exact (Nat.zero_lt_of_lt htwo).ne'
  have hlonger : i.toUInt64 < n % count.toUInt64 ↔ i < n.toNat % count := by
    rw [UInt64.lt_iff_toNat_lt, UInt64.toNat_mod, hpieces, Nat.toUInt64_eq,
      UInt64.toNat_ofNat_of_lt' (hi.trans hcount)]
  have hbase : (n / count.toUInt64).toNat = n.toNat / count := by rw [UInt64.toNat_div, hpieces]
  rw [wordLength?, if_pos hequal, if_neg hne]
  by_cases hfirst : i < n.toNat % count
  · have hhalf := Nat.div_le_div_left (a := n.toNat) htwo Nat.two_pos
    have hn := n.toNat_lt
    rw [if_pos hfirst, if_pos (hlonger.2 hfirst), hbase]
    exact word?_eq rfl (by omega)
  · rw [if_neg hfirst, if_neg (mt hlonger.1 hfirst), ← hbase]
    exact congrArg some UInt64.ofNat_toNat.symm

theorem wordLength?_of_not_equal (hequal : s.equal = false) {n : UInt64} {count i : Nat}
    (hmany : s.maxLength * (count - 1) < n.toNat) (hcount : count < 2 ^ 64) (hi : i < count) :
    s.wordLength? n count.toUInt64 i.toUInt64 =
      some (if i + 1 < count then s.maxLength
        else n.toNat - s.maxLength * (count - 1)).toUInt64 := by
  have hn := n.toNat_lt
  have hpieces : count.toUInt64.toNat = count := UInt64.toNat_ofNat_of_lt' hcount
  have hnext : word? (i.toUInt64.toNat + 1) = some (i + 1).toUInt64 := by
    rw [Nat.toUInt64_eq, UInt64.toNat_ofNat_of_lt' (hi.trans hcount)]
    exact word?_eq rfl (by omega)
  have hfull : (i + 1).toUInt64 < count.toUInt64 ↔ i + 1 < count := by
    rw [UInt64.lt_iff_toNat_lt, hpieces, Nat.toUInt64_eq, UInt64.toNat_ofNat',
      Nat.mod_eq_of_lt (by omega)]
  rw [wordLength?, if_neg (Bool.eq_false_iff.1 hequal), hnext]
  by_cases hlast : i + 1 < count
  · rw [if_pos hlast]
    exact (if_pos (hfull.2 hlast)).trans (congrArg some UInt64.ofNat_toNat.symm)
  · have hbefore : word? (count.toUInt64.toNat - 1) = some (count - 1).toUInt64 := by
      rw [hpieces]
      exact word?_eq (by omega) (by omega)
    have hproduct : word? (s.size.toNat * (count - 1).toUInt64.toNat) =
        some (s.maxLength * (count - 1)).toUInt64 := by
      rw [Nat.toUInt64_eq, UInt64.toNat_ofNat', Nat.mod_eq_of_lt (by omega)]
      exact word?_eq rfl (hmany.trans hn)
    have hrest : word? (n.toNat - (s.maxLength * (count - 1)).toUInt64.toNat) =
        some (n.toNat - s.maxLength * (count - 1)).toUInt64 := by
      rw [Nat.toUInt64_eq, UInt64.toNat_ofNat_of_lt' (hmany.trans hn)]
      exact word?_eq (by omega) (by omega)
    rw [if_neg hlast, ← hrest]
    refine (if_neg (mt hfull.1 hlast)).trans ?_
    rw [hbefore, Option.bind_eq_bind, Option.bind_some, hproduct]
    rfl

theorem wordLengths?_eq (s : LengthSplit) (n : UInt64) :
    s.wordLengths? n = some ((s.pieceLengths n.toNat).map Nat.toUInt64) := by
  rw [wordLengths?]
  by_cases hle : n ≤ s.size
  · rw [if_pos hle, pieceLengths_of_le (UInt64.le_iff_toNat_le.1 hle), List.map_singleton]
    exact congrArg (some [·]) UInt64.ofNat_toNat.symm
  · have hn := n.toNat_lt
    have hlt : s.maxLength < n.toNat := Nat.lt_of_not_le (mt UInt64.le_iff_toNat_le.2 hle)
    have hroom : n.toNat ≤ s.maxLength * (n.toNat ⌈/⌉ s.maxLength) :=
      (ceilDiv_le_iff_le_mul s.maxLength_pos).1 le_rfl
    have hmany : s.maxLength * (n.toNat ⌈/⌉ s.maxLength - 1) < n.toNat :=
      mul_pred_ceilDiv_lt s.maxLength_pos (Nat.zero_lt_of_lt hlt)
    have hfew : n.toNat ⌈/⌉ s.maxLength - 1 ≤ s.maxLength * (n.toNat ⌈/⌉ s.maxLength - 1) :=
      Nat.le_mul_of_pos_left _ s.maxLength_pos
    have hcount : n.toNat ⌈/⌉ s.maxLength < 2 ^ 64 := by omega
    have htwo : 2 ≤ n.toNat ⌈/⌉ s.maxLength := by
      by_contra hone
      have hfull := Nat.mul_le_mul_left s.maxLength (Nat.le_of_lt_succ (Nat.not_le.1 hone))
      omega
    have hpieces : pieceCount n.toNat s.maxLength = n.toNat ⌈/⌉ s.maxLength :=
      pieceCount_eq_ceilDiv _ s.maxLength_pos
    have hwords : wordCount? n s.size = some (n.toNat ⌈/⌉ s.maxLength).toUInt64 := by
      rw [← hpieces]
      exact wordCount?_eq s.maxLength_pos
    rw [if_neg hle, hwords, Option.bind_eq_bind, Option.bind_some, Nat.toUInt64_eq,
      UInt64.toNat_ofNat_of_lt' hcount]
    cases hequal : s.equal with
    | true =>
      simp only [pieceLengths, if_neg (Nat.not_le.2 hlt), hpieces, hequal, ↓reduceIte, List.map_map]
      exact mapM_eq_some fun i hi =>
        wordLength?_of_equal hequal htwo hcount (List.mem_range.1 hi)
    | false =>
      simp only [pieceLengths, if_neg (Nat.not_le.2 hlt), hpieces, hequal, Bool.false_eq_true,
        ↓reduceIte, List.map_map]
      exact mapM_eq_some fun i hi =>
        wordLength?_of_not_equal hequal hmany hcount (List.mem_range.1 hi)

end Words

section Cut

variable {α : Type}

theorem map_length_cut {lengths : List Nat} {xs : List α} (h : lengths.sum ≤ xs.length) :
    (cut lengths xs).map List.length = lengths := by
  induction lengths generalizing xs with
  | nil => rfl
  | cons n lengths ih =>
    rw [List.sum_cons] at h
    have hrest : lengths.sum ≤ (xs.drop n).length := by
      rw [List.length_drop]
      omega
    rw [cut, List.map_cons, ih hrest, List.length_take, Nat.min_eq_left (by omega)]

theorem flatten_cut {lengths : List Nat} {xs : List α} (h : lengths.sum = xs.length) :
    (cut lengths xs).flatten = xs := by
  induction lengths generalizing xs with
  | nil => exact (List.length_eq_zero_iff.1 h.symm).symm
  | cons n lengths ih =>
    rw [List.sum_cons] at h
    have hrest : lengths.sum = (xs.drop n).length := by
      rw [List.length_drop]
      omega
    rw [cut, List.flatten_cons, ih hrest, List.take_append_drop]

end Cut

/-- The lengths can be computed in words, add up to the whole and are as few as the maximum allows;
cutting gives pieces of these lengths. -/
theorem pieceLengths_cuts (s : LengthSplit) :
    (∀ n : UInt64, ∃ words, s.wordLengths? n = some words ∧
      words.map UInt64.toNat = s.pieceLengths n.toNat) ∧
      (∀ n : Nat, s.Cuts n (s.pieceLengths n)) ∧
      ∀ (α : Type) (steps : List α),
        (s.split steps).map List.length = s.pieceLengths steps.length ∧
          (s.split steps).flatten = steps := by
  refine ⟨fun n => ⟨_, s.wordLengths?_eq n, ?_⟩, s.cuts_pieceLengths, fun α steps => ?_⟩
  · rw [List.map_map, List.map_congr_left, List.map_id]
    intro l hl
    have hle := (s.cuts_pieceLengths n.toNat).le l hl
    exact UInt64.toNat_ofNat_of_lt' (hle.trans_lt s.size.toNat_lt)
  · have hsum := (s.cuts_pieceLengths steps.length).sum
    exact ⟨map_length_cut hsum.le, flatten_cut hsum⟩

example : (LengthSplit.mk 3 false (by decide)).pieceLengths 7 = [3, 3, 1] ∧
    (LengthSplit.mk 3 true (by decide)).pieceLengths 7 = [3, 2, 2] := by decide

end LengthSplit

end Tabular
