import Mathlib.Algebra.Order.Floor.Div
import Tabular.Proofs.Run.Chunk
import Tabular.Proofs.Word

namespace Tabular

namespace Chunk

/-- Ranges that are not empty and follow one another from `start` to `stop`. -/
inductive Covers : Nat → Nat → List Chunk → Prop where
  | nil (start : Nat) : Covers start start []
  | cons {c : Chunk} {stop : Nat} {rest : List Chunk} :
    c.start < c.stop → Covers c.stop stop rest → Covers c.start stop (c :: rest)

variable {n size : Nat}

theorem number_eq_ceilDiv (hsize : 0 < size) : number n size = n ⌈/⌉ size := by
  rw [number, Nat.ceilDiv_eq_add_pred_div, Nat.add_sub_assoc hsize]

theorem number_eq_zero_iff (hsize : 0 < size) : number n size = 0 ↔ n = 0 := by
  have hfirst := lt_number (n := n) (i := 0) hsize
  rw [Nat.zero_mul] at hfirst
  omega

/-- A second chunk starts where the first ends, so that the last, were it full, would end before
twice the rows. -/
theorem number_mul_lt (hsize : 0 < size) (hword : size < 2 ^ 64) (hn : n ≤ 2 ^ 63) :
    number n size * size < 2 ^ 64 := by
  cases hnumber : number n size with
  | zero => omega
  | succ last =>
    have hlast : last * size < n := by
      rw [← lt_number hsize, hnumber]
      exact Nat.lt_succ_self last
    rw [Nat.succ_mul]
    rcases Nat.eq_zero_or_pos last with rfl | hpos
    · omega
    · have hwide : size ≤ last * size := Nat.le_mul_of_pos_left size hpos
      omega

theorem covers_from (hsize : 0 < size) {k m : Nat} (h : k + m = number n size) :
    Covers (min (k * size) n) n ((List.range' k m).map (ofNumber n size)) := by
  induction m generalizing k with
  | zero =>
    have hend := le_number_mul (n := n) hsize
    rw [← h, Nat.add_zero] at hend
    rw [Nat.min_eq_right hend]
    exact .nil n
  | succ m ih =>
    have hlt : k * size < n := (lt_number hsize).1 (by omega)
    have hrest := ih (k := k + 1) (by omega)
    rw [Nat.succ_mul] at hrest
    rw [Nat.min_eq_left (Nat.le_of_lt hlt), List.range'_succ, List.map_cons]
    refine .cons (c := ofNumber n size k) ?_ hrest
    change k * size < min (k * size + size) n
    omega

theorem covers_ranges (hsize : 0 < size) : Covers 0 n (ranges n size) := by
  have h := covers_from (n := n) hsize (Nat.zero_add (number n size))
  rwa [Nat.zero_mul, Nat.zero_min, ← List.range_eq_range'] at h

/-- How `n` rows are cut into chunks. -/
structure Tiles (n size : Nat) (chunks : List Chunk) : Prop where
  count : chunks.length = n ⌈/⌉ size
  covers : Covers 0 n chunks
  le : ∀ c ∈ chunks, c.size ≤ size
  full : ∀ c ∈ chunks.dropLast, c.size = size
  flatten : ∀ all : List Row, all.length = n → (chunks.map fun c => c.rows all).flatten = all
  empty : chunks = [] ↔ n = 0

theorem tiles_ranges (hsize : 0 < size) : Tiles n size (ranges n size) where
  count := by
    rw [ranges_eq, List.length_map, List.length_range, number_eq_ceilDiv hsize]
  covers := covers_ranges hsize
  le := by
    intro c hc
    obtain ⟨i, -, rfl⟩ := List.mem_map.1 hc
    change (ofNumber n size i).size ≤ size
    rw [ofNumber_size]
    exact Nat.min_le_left _ _
  full := by
    intro c hc
    rw [ranges_eq] at hc
    cases hnumber : number n size with
    | zero =>
      rw [hnumber] at hc
      cases hc
    | succ last =>
      rw [hnumber, List.range_succ, List.map_append, List.map_singleton, List.dropLast_concat] at hc
      obtain ⟨i, hi, rfl⟩ := List.mem_map.1 hc
      have hnext : (i + 1) * size < n := by
        rw [← lt_number hsize, hnumber]
        exact Nat.succ_lt_succ (List.mem_range.1 hi)
      rw [Nat.succ_mul] at hnext
      rw [ofNumber_size]
      omega
  flatten := by
    rintro all rfl
    exact flatten_ranges all hsize
  empty := by
    rw [ranges_eq, List.map_eq_nil_iff, List.range_eq_nil, number_eq_zero_iff hsize]

section Words

/-- The first rows of the chunks from `start` on, in words, as long as the next is a word and a row.
-/
def firstRows (count size start : UInt64) : List UInt64 :=
  if _h : start < count ∧ 0 < size then
    if _hroom : start.toNat + size.toNat < 2 ^ 64 then start :: firstRows count size (start + size)
    else [start]
  else []
termination_by count.toNat - start.toNat
decreasing_by
  have hstart := UInt64.lt_iff_toNat_lt.1 _h.1
  have hsize := UInt64.lt_iff_toNat_lt.1 _h.2
  rw [UInt64.toNat_zero] at hsize
  rw [UInt64.toNat_add, Nat.mod_eq_of_lt _hroom]
  omega

/-- The chunk from a row on, if its end is computed without leaving the words. -/
def wordRange? (count size start : Nat) : Option Chunk := do
  let stop ← word? (start + size)
  return ⟨start, min stop.toNat count⟩

/-- The ranges of the chunks, computed in words: no sum may leave them, and the chunk size may not
be zero. -/
def wordRanges? (count size : UInt64) : Option (List Chunk) :=
  if size = 0 then none
  else ((firstRows count size 0).map UInt64.toNat).mapM (wordRange? count.toNat size.toNat)

variable {count size start : UInt64}

theorem firstRows_of_le (hle : count ≤ start) : firstRows count size start = [] := by
  rw [firstRows, dif_neg fun h => UInt64.not_lt.2 hle h.1]

theorem firstRows_of_lt (hsize : 0 < size.toNat) (hlt : start < count) :
    firstRows count size start =
      if start.toNat + size.toNat < 2 ^ 64 then start :: firstRows count size (start + size)
      else [start] := by
  rw [firstRows, dif_pos ⟨hlt, UInt64.lt_iff_toNat_lt.2 hsize⟩, dite_eq_ite]

theorem lt_iff_lt_number (hsize : 0 < size.toNat) {k : Nat}
    (hstart : start.toNat = k * size.toNat) :
    start < count ↔ k < number count.toNat size.toNat := by
  rw [UInt64.lt_iff_toNat_lt, hstart, lt_number hsize]

theorem map_toNat_firstRows (hsize : 0 < size.toNat) {k m : Nat}
    (h : k + m = number count.toNat size.toNat) (hstart : start.toNat = k * size.toNat) :
    (firstRows count size start).map UInt64.toNat =
      (List.range' k m).map fun i => i * size.toNat := by
  induction m generalizing k start with
  | zero =>
    have hle : count ≤ start := by
      rw [← UInt64.not_lt, lt_iff_lt_number hsize hstart, ← h]
      exact Nat.lt_irrefl k
    rw [firstRows_of_le hle]
    rfl
  | succ m ih =>
    have hlt : start < count := by
      rw [lt_iff_lt_number hsize hstart, ← h]
      exact Nat.lt_add_of_pos_right m.succ_pos
    rw [firstRows_of_lt hsize hlt, List.range'_succ, List.map_cons, ← hstart]
    split
    · next hroom =>
      have hnext : (start + size).toNat = (k + 1) * size.toNat := by
        rw [UInt64.toNat_add, Nat.mod_eq_of_lt hroom, hstart, Nat.succ_mul]
      rw [List.map_cons, ih (by omega) hnext]
    · next hroom =>
      have hlast : ¬k + 1 < number count.toNat size.toNat := by
        rw [lt_number hsize, Nat.succ_mul, ← hstart]
        have hcount := count.toNat_lt
        omega
      have hm : m = 0 := by omega
      rw [hm]
      rfl

theorem wordRange?_eq {i : Nat} (h : (i + 1) * size.toNat < 2 ^ 64) :
    wordRange? n size.toNat (i * size.toNat) = some (ofNumber n size.toNat i) := by
  rw [Nat.succ_mul] at h
  have hstop := word?_eq (Nat.cast_add (i * size.toNat) size.toNat).symm h
  rw [wordRange?, hstop, Option.bind_eq_bind, Option.bind_some, Nat.toUInt64_eq,
    UInt64.toNat_ofNat_of_lt' h]
  rfl

theorem wordRange?_eq_none {i : Nat} (h : 2 ^ 64 ≤ (i + 1) * size.toNat) :
    wordRange? n size.toNat (i * size.toNat) = none := by
  rw [Nat.succ_mul] at h
  have hstop : word? ((i * size.toNat : Nat) + (size.toNat : Int)) = none := if_neg (by omega)
  rw [wordRange?, hstop]
  rfl

/-- The ranges in words are those in whole numbers, if the end of the last chunk is a word, were it
full. -/
theorem wordRanges?_eq (hsize : 0 < size.toNat) : wordRanges? count size =
    if number count.toNat size.toNat * size.toNat < 2 ^ 64 then some (ranges count.toNat size.toNat)
    else none := by
  have hne : size ≠ 0 := fun h => hsize.ne' (UInt64.toNat_inj.2 h)
  have hzero : (0 : UInt64).toNat = 0 * size.toNat := (Nat.zero_mul _).symm
  rw [wordRanges?, if_neg hne, map_toNat_firstRows hsize (Nat.zero_add _) hzero,
    ← List.range_eq_range', List.mapM_map]
  split
  · next hroom =>
    apply mapM_eq_some
    intro i hi
    rw [Function.comp_apply]
    exact wordRange?_eq (Nat.lt_of_le_of_lt (Nat.mul_le_mul_right _ (List.mem_range.1 hi)) hroom)
  · next hroom =>
    have hpos : number count.toNat size.toNat ≠ 0 := by
      intro hnumber
      rw [hnumber, Nat.zero_mul] at hroom
      omega
    obtain ⟨last, hlast⟩ := Nat.exists_eq_succ_of_ne_zero hpos
    rw [hlast] at hroom ⊢
    apply mapM_eq_none (List.mem_range.2 (Nat.lt_succ_self last))
    rw [Function.comp_apply]
    exact wordRange?_eq_none (Nat.not_lt.1 hroom)

example : wordRanges? 9223372036854775809 9223372036854775808 = none := by
  rw [wordRanges?_eq (by decide), if_neg (by decide)]

/-- Up to `2 ^ 63` rows and for every chunk size but zero, no sum leaves the words, and full chunks
tile the rows, the last one apart. -/
theorem ranges_tile (hcount : count.toNat ≤ 2 ^ 63) (hsize : 0 < size.toNat) :
    wordRanges? count size = some (ranges count.toNat size.toNat) ∧
      Tiles count.toNat size.toNat (ranges count.toNat size.toNat) := by
  have hword := @wordRanges?_eq count size hsize
  rw [if_pos (number_mul_lt hsize size.toNat_lt hcount)] at hword
  exact ⟨hword, tiles_ranges hsize⟩

theorem ranges_tile_of_half :
    let ranges : List Chunk := [⟨0, 2 ^ 63 - 1⟩, ⟨2 ^ 63 - 1, 2 ^ 63⟩]
    wordRanges? 9223372036854775808 9223372036854775807 = some ranges ∧
      Tiles (2 ^ 63) (2 ^ 63 - 1) ranges := by
  intro ranges
  have h := @ranges_tile 9223372036854775808 9223372036854775807 (by decide) (by decide)
  have hranges : Chunk.ranges (9223372036854775808 : UInt64).toNat
      (9223372036854775807 : UInt64).toNat = ranges := by decide
  rw [hranges] at h
  exact h

end Words

end Chunk

end Tabular
