import Mathlib.Algebra.Order.BigOperators.Group.Multiset
import Mathlib.Algebra.Order.Ring.Abs
import Tabular.Proofs.Statistics.Report

namespace Tabular

/-- The sum of the squares of some integers. -/
def sumOfSquares (numbers : Multiset Int) : Int := (numbers.map fun n => n * n).sum

theorem sumOfSquares_nonneg (numbers : Multiset Int) : 0 ≤ sumOfSquares numbers :=
  Multiset.sum_nonneg (Multiset.forall_mem_map_iff.2 fun n _ => mul_self_nonneg n)

theorem sumOfSquares_le {numbers : Multiset Int} {bound : Int}
    (h : ∀ n ∈ numbers, -bound ≤ n ∧ n ≤ bound) :
    sumOfSquares numbers ≤ numbers.card * (bound * bound) := by
  have hsquares : ∀ square ∈ numbers.map fun n => n * n, square ≤ bound * bound := by
    refine Multiset.forall_mem_map_iff.2 fun n hn => ?_
    simpa only [sq] using sq_le_sq' (h n hn).1 (h n hn).2
  have hsum := Multiset.sum_le_card_nsmul _ _ hsquares
  rwa [Multiset.card_map, nsmul_eq_mul] at hsum

theorem IntegerCounter.exactSquares_eq (values : Multiset Int64) :
    exactSquares values = sumOfSquares (values.map Int64.toInt) := by
  rw [sumOfSquares, Multiset.map_map]
  rfl

theorem clamp128_of_nonneg {n : Int} (hn : 0 ≤ n) : clamp128 n = min n (2 ^ 127 - 1) := by
  rw [clamp128, clamp]
  omega

theorem ColumnType.Stores.integer?_bounds {type : ColumnType} {v : Value} (h : type.Stores v)
    (hne : type ≠ .long) {n : Int} (hn : v.integer? = some n) : -2 ^ 31 ≤ n ∧ n ≤ 2 ^ 31 := by
  cases h with
  | integer i =>
    cases hn
    exact ⟨i.le_toInt, i.toInt_lt.le⟩
  | byte i =>
    have hlow := i.le_toInt
    have hhigh := i.toInt_lt
    cases hn
    omega
  | long i => exact absurd rfl hne
  | _ => cases hn

namespace Counter

variable {type : ColumnType} {s : Multiset Value}

/-- Fewer values than `2 ^ 64`, each of at most 32 bits, have squares that add up to less than `2 ^
127`. -/
theorem sumOfSquares_lt_of_short (hne : type ≠ .long) (accepted : ∀ v ∈ s, type.accepts v = true)
    (few : s.card < 2 ^ 64) : sumOfSquares (s.filterMap Value.integer?) < 2 ^ 127 := by
  have hbounds : ∀ n ∈ s.filterMap Value.integer?, -2 ^ 31 ≤ n ∧ n ≤ 2 ^ 31 := by
    intro n hn
    obtain ⟨v, hv, hn⟩ := (Multiset.mem_filterMap _ _).1 hn
    rcases ColumnType.accepts_iff.1 (accepted v hv) with rfl | hstores
    · cases hn
    · exact hstores.integer?_bounds hne hn
  have hsum := sumOfSquares_le hbounds
  have hcard := card_filterMap_le Value.integer? s
  omega

/-- The sum of a counter of integers is exact, and its sum of squares is exact up to the greatest
integer of 128 bits. -/
theorem sumSquares_eq (type : ColumnType) (mem : type ∈ [.integer, .long, .byte])
    (s : Multiset Value) (c : Counter) (collected : Collected type s c) (few : s.card < 2 ^ 64) :
    ∃ i : IntegerCounter, c.state = .integer i ∧ i.sum = (s.filterMap Value.integer?).sum ∧
      i.sumSquares = min (sumOfSquares (s.filterMap Value.integer?)) (2 ^ 127 - 1) ∧
      (i.sumSquares = sumOfSquares (s.filterMap Value.integer?) ↔
        sumOfSquares (s.filterMap Value.integer?) < 2 ^ 127) ∧
      (type ≠ .long → i.sumSquares = sumOfSquares (s.filterMap Value.integer?)) := by
  obtain ⟨i, hstate, hi⟩ := (collected.summarizes few).exists_integer mem
  have hnumbers := map_known_map fun v hv =>
    Value.integer?_eq_map_whole? mem (collected.accepted v hv)
  have hsum : i.sum = (s.filterMap Value.integer?).sum := by
    rw [hi.sum, IntegerCounter.exactSum, hnumbers]
  have hsquares : i.sumSquares = min (sumOfSquares (s.filterMap Value.integer?)) (2 ^ 127 - 1) := by
    rw [hi.sumSquares, IntegerCounter.exactSquares_eq, hnumbers,
      clamp128_of_nonneg (sumOfSquares_nonneg _)]
  refine ⟨i, hstate, hsum, hsquares, by omega, fun hne => ?_⟩
  have hshort := sumOfSquares_lt_of_short hne collected.accepted few
  omega

theorem sumSquares_eq_of_limits :
    let s : Multiset Value := .long Int64.minValue ::ₘ .null .long ::ₘ 0
    let t : Multiset Value := .long Int64.maxValue ::ₘ 0
    ∃ c i, Collected .long (s + t) c ∧ c.state = .integer i ∧ i.sum = -1 ∧
      i.sumSquares = 2 ^ 127 - 2 ^ 64 + 1 := by
  intro s t
  have collected : Collected .long (s + t) _ :=
    .merge (.add (.add .start rfl) rfl) (.add .start rfl) rfl
  obtain ⟨i, hi, hsum, -, hexact, -⟩ := sumSquares_eq .long (by decide) _ _ collected (by decide)
  have hsquares : sumOfSquares ((s + t).filterMap Value.integer?) = 2 ^ 127 - 2 ^ 64 + 1 := rfl
  refine ⟨_, i, collected, hi, hsum, ?_⟩
  rw [hexact.2 (by rw [hsquares]; decide), hsquares]

/-- The least integer of 64 bits, counted twice, is where the sum of squares stops being exact. -/
theorem sumSquares_ne_of_least :
    let s : Multiset Value := .long Int64.minValue ::ₘ .long Int64.minValue ::ₘ 0
    ∃ c i, Collected .long s c ∧ s.card < 2 ^ 64 ∧ c.state = .integer i ∧
      sumOfSquares (s.filterMap Value.integer?) = 2 ^ 127 ∧ i.sumSquares = 2 ^ 127 - 1 := by
  intro s
  have collected : Collected .long s _ := .add (.add .start rfl) rfl
  exact ⟨_, _, collected, by decide, rfl, rfl, rfl⟩

end Counter

end Tabular
