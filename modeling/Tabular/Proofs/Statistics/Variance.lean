import Mathlib.Tactic.Ring
import Tabular.Proofs.Binary.Quotient
import Tabular.Proofs.Statistics.Kind
import Tabular.Proofs.Statistics.Squares

namespace Tabular

/-- The sum of the squared differences of all pairs of some integers. -/
def spread (numbers : Multiset Int) : Int :=
  numbers.card * sumOfSquares numbers - numbers.sum * numbers.sum

theorem sumOfSquares_cons (n : Int) (numbers : Multiset Int) :
    sumOfSquares (n ::ₘ numbers) = n * n + sumOfSquares numbers := by
  rw [sumOfSquares, sumOfSquares, Multiset.map_cons, Multiset.sum_cons]

theorem sumOfSquares_eq_zero_iff (numbers : Multiset Int) :
    sumOfSquares numbers = 0 ↔ ∀ n ∈ numbers, n = 0 := by
  induction numbers using Multiset.induction_on with
  | empty => simp [sumOfSquares]
  | cons n numbers ih =>
    have hn := mul_self_nonneg n
    have hnumbers := sumOfSquares_nonneg numbers
    rw [sumOfSquares_cons, Multiset.forall_mem_cons, ← ih, ← mul_self_eq_zero (a := n)]
    omega

theorem sumOfSquares_differences (n : Int) (numbers : Multiset Int) :
    sumOfSquares (numbers.map (n - ·)) =
      numbers.card * (n * n) - 2 * n * numbers.sum + sumOfSquares numbers := by
  induction numbers using Multiset.induction_on with
  | empty => simp [sumOfSquares]
  | cons m numbers ih =>
    rw [Multiset.map_cons, sumOfSquares_cons, sumOfSquares_cons, ih, Multiset.card_cons,
      Multiset.sum_cons]
    push_cast
    ring

theorem spread_cons (n : Int) (numbers : Multiset Int) :
    spread (n ::ₘ numbers) = spread numbers + sumOfSquares (numbers.map (n - ·)) := by
  rw [sumOfSquares_differences, spread, spread, sumOfSquares_cons, Multiset.card_cons,
    Multiset.sum_cons]
  push_cast
  ring

theorem spread_nonneg (numbers : Multiset Int) : 0 ≤ spread numbers := by
  induction numbers using Multiset.induction_on with
  | empty => simp [spread]
  | cons n numbers ih =>
    rw [spread_cons]
    exact add_nonneg ih (sumOfSquares_nonneg _)

theorem spread_eq_zero_iff (numbers : Multiset Int) :
    spread numbers = 0 ↔ ∀ m ∈ numbers, ∀ n ∈ numbers, m = n := by
  induction numbers using Multiset.induction_on with
  | empty => simp [spread]
  | cons x numbers ih =>
    have hspread := spread_nonneg numbers
    have hsquares := sumOfSquares_nonneg (numbers.map (x - ·))
    have hzero : spread (x ::ₘ numbers) = 0 ↔
        spread numbers = 0 ∧ sumOfSquares (numbers.map (x - ·)) = 0 := by
      rw [spread_cons]
      omega
    rw [hzero, ih, sumOfSquares_eq_zero_iff, Multiset.forall_mem_map_iff]
    constructor
    · rintro ⟨hequal, hx⟩
      have hx' : ∀ n ∈ numbers, x = n := fun n hn => sub_eq_zero.1 (hx n hn)
      refine Multiset.forall_mem_cons.2 ⟨Multiset.forall_mem_cons.2 ⟨rfl, hx'⟩, fun m hm => ?_⟩
      exact Multiset.forall_mem_cons.2 ⟨(hx' m hm).symm, hequal m hm⟩
    · intro h
      refine ⟨fun m hm n hn => ?_, fun n hn => ?_⟩
      · exact h m (Multiset.mem_cons_of_mem hm) n (Multiset.mem_cons_of_mem hn)
      · rw [h x (Multiset.mem_cons_self x _) n (Multiset.mem_cons_of_mem hn), sub_self]

theorem fit128?_of_fits {n : Int} (hlow : 0 ≤ n) (hhigh : n < 2 ^ 127) : fit128? n = some n :=
  if_pos ⟨by omega, hhigh⟩

theorem fit128?_of_le {n : Int} (h : 2 ^ 127 ≤ n) : fit128? n = none :=
  if_neg fun hfits => hfits.2.not_ge h

namespace IntegerCounter

variable {c : IntegerCounter} {s : Multiset (Option Int64)}

/-- The counters of integers that additions and merges lead to, with the values that went into them.
-/
inductive Collected : Multiset (Option Int64) → IntegerCounter → Prop where
  | start : Collected 0 .empty
  | add {s : Multiset (Option Int64)} {c : IntegerCounter} (h : Collected s c) (v : Option Int64) :
      Collected (v ::ₘ s) (c.add v)
  | merge {s t : Multiset (Option Int64)} {a b : IntegerCounter} (ha : Collected s a)
      (hb : Collected t b) : Collected (s + t) (a.merge b)

theorem Collected.total_eq (h : Collected s c) : c.total = c.missing + (known s).card := by
  induction h with
  | start => rfl
  | @add s c _ v ih =>
    rw [total_add, ih]
    cases v with
    | none => simp only [known_cons_none, IntegerCounter.add, Nat.add_right_comm]
    | some v =>
      simp only [known_cons_some, Multiset.card_cons, IntegerCounter.add, addPresent, Nat.add_assoc]
  | merge _ _ iha ihb =>
    simp only [known_add, Multiset.card_add, IntegerCounter.merge, iha, ihb]
    omega

theorem Collected.present_eq (h : Collected s c) : c.present = (known s).card := by
  rw [present, h.total_eq, Nat.add_sub_cancel_left]

theorem Collected.summarizes (h : Collected s c) (few : (known s).card < 2 ^ 64) :
    c.Summarizes s := by
  induction h with
  | start => exact .empty
  | @add s c _ v ih =>
    have hle : (known s).card ≤ (known (v ::ₘ s)).card := by
      cases v with
      | none => rw [known_cons_none]
      | some v =>
        rw [known_cons_some, Multiset.card_cons]
        exact Nat.le_succ _
    exact (ih (hle.trans_lt few)).add few
  | @merge s t a b _ _ iha ihb =>
    have hcard := few
    rw [known_add, Multiset.card_add] at hcard
    exact (iha (by omega)).merge (ihb (by omega)) few

/-- The numerator is exact or none: a sum of squares at its limit leaves 128 bits when it is
doubled. -/
theorem Summarizes.varianceNumerator?_eq (h : c.Summarizes s)
    (hpresent : c.present = (known s).card) (many : 1 < c.present) :
    c.varianceNumerator? =
      if c.present * sumOfSquares ((known s).map Int64.toInt) < 2 ^ 127 then
        some (spread ((known s).map Int64.toInt)) else none := by
  have hsum : ((known s).map Int64.toInt).sum = c.sum := h.sum.symm
  have hsquares : c.sumSquares = min (sumOfSquares ((known s).map Int64.toInt)) (2 ^ 127 - 1) := by
    rw [h.sumSquares, exactSquares_eq, clamp128_of_nonneg (sumOfSquares_nonneg _)]
  have hspread : spread ((known s).map Int64.toInt) =
      c.present * sumOfSquares ((known s).map Int64.toInt) - c.sum * c.sum := by
    rw [spread, Multiset.card_map, hpresent, hsum]
  have hnumerator := spread_nonneg ((known s).map Int64.toInt)
  rw [hspread] at hnumerator ⊢
  have hnonneg := sumOfSquares_nonneg ((known s).map Int64.toInt)
  have hsquare := mul_self_nonneg c.sum
  have htwo : (2 : Int) ≤ c.present := by exact_mod_cast many
  generalize sumOfSquares ((known s).map Int64.toInt) = squares at *
  rw [varianceNumerator?, hsquares]
  by_cases hlt : c.present * squares < 2 ^ 127
  · have hle : squares ≤ c.present * squares := le_mul_of_one_le_left hnonneg (by omega)
    have hmin : min squares (2 ^ 127 - 1) = squares := by omega
    rw [if_pos hlt, hmin, fit128?_of_fits (by omega) hlt, fit128?_of_fits hsquare (by omega)]
    exact fit128?_of_fits hnumerator (by omega)
  · have hstopped : 2 ^ 127 ≤ c.present * min squares (2 ^ 127 - 1) := by
      rcases le_total squares (2 ^ 127 - 1) with hle | hle
      · rw [min_eq_left hle]
        exact not_lt.1 hlt
      · rw [min_eq_right hle]
        omega
    rw [if_neg hlt, fit128?_of_le hstopped]
    rfl

theorem denominator_bounds (many : 1 < c.present) (few : c.present < 2 ^ 63) :
    0 < c.present * (c.present - 1 : Int) ∧ c.present * (c.present - 1 : Int) < 2 ^ 126 := by
  have hlow : (2 : Int) ≤ c.present := by exact_mod_cast many
  have hhigh : (c.present : Int) < 2 ^ 63 := by exact_mod_cast few
  constructor
  · exact mul_pos (by omega) (by omega)
  · calc c.present * (c.present - 1 : Int) < c.present * (2 ^ 63 : Int) :=
          mul_lt_mul_of_pos_left (by omega) (by omega)
      _ < 2 ^ 63 * 2 ^ 63 := mul_lt_mul_of_pos_right hhigh (by decide)

theorem variance_of_numerator {numerator : Int} (h : c.varianceNumerator? = some numerator) :
    c.variance =
      (Binary.ofInt numerator : Double).div (.ofInt (c.present * (c.present - 1 : Int))) := by
  rw [variance, h]

theorem variance_eq_zero_or_isPositive {numerator : Int} (h : c.varianceNumerator? = some numerator)
    (hlow : 0 ≤ numerator) (hhigh : numerator < 2 ^ 127) (many : 1 < c.present)
    (few : c.present < 2 ^ 63) : c.variance = .zero ∨ c.variance.isPositive = true := by
  obtain ⟨hpos, hlt⟩ := denominator_bounds many few
  obtain ⟨hfinite, hone⟩ := Binary.one_le_ofInt hpos (hlt.trans (by decide))
  have hdenominator := lt_of_lt_of_le one_pos hone
  rw [variance_of_numerator h]
  rcases hlow.eq_or_lt with hzero | hnumerator
  · left
    subst hzero
    rw [Binary.ofInt_zero, Binary.zero_div hfinite hdenominator]
  · right
    obtain ⟨hfinite', hone'⟩ := Binary.one_le_ofInt hnumerator hhigh
    exact Binary.div_isPositive hfinite' hfinite hone' hdenominator

theorem deviationOf_eq_sqrt {variance : Double}
    (h : variance = .zero ∨ variance.isPositive = true) : deviationOf variance = variance.sqrt := by
  rw [deviationOf]
  rcases h with rfl | h
  · rfl
  · rw [if_pos h]

/-- The numerator of the variance is that of some integers, and the variance needs no correction. -/
structure ExactVariance (c : IntegerCounter) (numbers : Multiset Int) (numerator : Int) : Prop where
  sumSquares : c.sumSquares = sumOfSquares numbers
  numerator_eq : numerator = c.present * sumOfSquares numbers - numbers.sum * numbers.sum
  nonneg : 0 ≤ numerator
  eq_zero_iff : numerator = 0 ↔ ∀ m ∈ numbers, ∀ n ∈ numbers, m = n
  variance : c.variance = .zero ∨ c.variance.isPositive = true
  deviation : ∀ type, (c.report type).deviation = some c.variance.sqrt

theorem Collected.exists_varianceNumerator?_iff (h : Collected s c) (many : 1 < c.present)
    (few : c.present < 2 ^ 63) : (∃ numerator, c.varianceNumerator? = some numerator) ↔
      c.present * sumOfSquares ((known s).map Int64.toInt) < 2 ^ 127 := by
  have hpresent := h.present_eq
  rw [(h.summarizes (by omega)).varianceNumerator?_eq hpresent many]
  split
  · next hlt => exact iff_of_true ⟨_, rfl⟩ hlt
  · next hnot => exact iff_of_false (fun ⟨_, hsome⟩ => nomatch hsome) hnot

theorem Collected.exactVariance (h : Collected s c) (many : 1 < c.present)
    (few : c.present < 2 ^ 63)
    {numerator : Int} (hnumerator : c.varianceNumerator? = some numerator) :
    c.ExactVariance ((known s).map Int64.toInt) numerator := by
  have hpresent := h.present_eq
  have hsummary := h.summarizes (by omega)
  have hlt := (h.exists_varianceNumerator?_iff many few).1 ⟨numerator, hnumerator⟩
  have hspread : numerator = spread ((known s).map Int64.toInt) := by
    have heq := hsummary.varianceNumerator?_eq hpresent many
    rw [if_pos hlt, hnumerator] at heq
    exact Option.some.inj heq
  have hvalue : numerator = c.present * sumOfSquares ((known s).map Int64.toInt) -
      ((known s).map Int64.toInt).sum * ((known s).map Int64.toInt).sum := by
    rw [hspread, spread, Multiset.card_map, hpresent]
  have hnonneg : 0 ≤ numerator := hspread ▸ spread_nonneg _
  have hsquares : c.sumSquares = sumOfSquares ((known s).map Int64.toInt) := by
    have hle : sumOfSquares ((known s).map Int64.toInt) ≤
        c.present * sumOfSquares ((known s).map Int64.toInt) :=
      le_mul_of_one_le_left (sumOfSquares_nonneg _) (by omega)
    rw [hsummary.sumSquares, exactSquares_eq, clamp128_of_nonneg (sumOfSquares_nonneg _)]
    omega
  have hvariance : c.variance = .zero ∨ c.variance.isPositive = true := by
    have hsum := mul_self_nonneg ((known s).map Int64.toInt).sum
    exact variance_eq_zero_or_isPositive hnumerator hnonneg (by omega) many few
  exact {
    sumSquares := hsquares
    numerator_eq := hvalue
    nonneg := hnonneg
    eq_zero_iff := hspread ▸ spread_eq_zero_iff _
    variance := hvariance
    deviation := fun type => by
      simp only [report, if_neg (Nat.not_le.2 many), deviationOf_eq_sqrt hvariance] }

end IntegerCounter

theorem CounterState.exists_of_kind_integer {s : CounterState} (h : s.kind = .integer) :
    ∃ c, s = .integer c := by
  cases s with
  | integer c => exact ⟨c, rfl⟩
  | _ => cases h

theorem ColumnType.mem_of_counterKind {type : ColumnType} (h : type.counterKind = .integer) :
    type ∈ [integer, long, byte] := by
  cases type with
  | integer | long | byte => decide
  | _ => cases h

namespace Counter

variable {type : ColumnType} {s : Multiset Value} {c : Counter} {i : IntegerCounter}

theorem Collected.isTyped (h : Collected type s c) : c.IsTyped := by
  induction h with
  | start => exact isTyped_ofType type
  | add _ hadd ih => exact ih.add hadd
  | merge _ _ hmerge ih _ => exact ih.merge hmerge

theorem Collected.integer (h : Collected type s c) (hstate : c.state = .integer i) :
    IntegerCounter.Collected (s.map Value.whole?) i := by
  induction h generalizing i with
  | start =>
    cases type <;> cases hstate <;> exact .start
  | @add s a b v h hadd ih =>
    obtain ⟨hv, state, hstep, rfl⟩ := add_eq_ok.1 hadd
    cases hstate
    have hkind : a.state.kind = .integer := (CounterState.adds_of_add hstep).kind_eq.symm
    obtain ⟨j, hj⟩ := CounterState.exists_of_kind_integer hkind
    have htype : a.type.counterKind = .integer := h.isTyped.symm.trans hkind
    have hnumeric :=
      Value.isNull_or_isNumeric (CounterState.isNumeric_of_counterKind (.inl htype)) hv
    rw [hj, CounterState.add_integer j hnumeric] at hstep
    cases hstep
    rw [Multiset.map_cons]
    exact (ih hj).add v.whole?
  | @merge s t a b c ha hb hmerge iha ihb =>
    obtain ⟨-, state, hstep, rfl⟩ := merge_eq_ok.1 hmerge
    cases hstate
    have hmerges := CounterState.merges_of_merge hstep
    generalize hj : a.state = left at hmerges
    generalize hk : b.state = right at hmerges
    cases hmerges with | integer j k =>
    rw [Multiset.map_add]
    exact (iha hj).merge (ihb hk)

/-- Where the numerator of a variance is taken as exact, it is that of the integers counted: not
negative, and zero for equal ones only. -/
theorem variance_exact (type : ColumnType) (s : Multiset Value) (c : Counter)
    (collected : Collected type s c) (i : IntegerCounter) (state : c.state = .integer i)
    (many : 1 < i.present) (few : i.present < 2 ^ 63) :
    c.report = .integer (i.report type) ∧ i.present = (s.filterMap Value.integer?).card ∧
      fit128? (i.present * (i.present - 1 : Int)) = some (i.present * (i.present - 1 : Int)) ∧
      ((∃ numerator, i.varianceNumerator? = some numerator) ↔
        i.present * sumOfSquares (s.filterMap Value.integer?) < 2 ^ 127) ∧
      ∀ numerator, i.varianceNumerator? = some numerator →
        i.ExactVariance (s.filterMap Value.integer?) numerator := by
  have htyped := collected.typed
  have hkind : type.counterKind = .integer := by
    rw [← htyped, ← collected.isTyped, state]
    rfl
  have hnumbers : (known (s.map Value.whole?)).map Int64.toInt = s.filterMap Value.integer? :=
    map_known_map fun v hv =>
      Value.integer?_eq_map_whole? (ColumnType.mem_of_counterKind hkind) (collected.accepted v hv)
  have hcollected := collected.integer state
  have hpresent : i.present = (s.filterMap Value.integer?).card := by
    rw [← hnumbers, Multiset.card_map, hcollected.present_eq]
  obtain ⟨hpos, hlt⟩ := IntegerCounter.denominator_bounds many few
  refine ⟨?_, hpresent, fit128?_of_fits hpos.le (by omega), ?_, fun numerator h => ?_⟩
  · rw [report, state, htyped]
  · rw [← hnumbers]
    exact hcollected.exists_varianceNumerator?_iff many few
  · rw [← hnumbers]
    exact hcollected.exactVariance many few h

theorem variance_exact_of_two :
    let s : Multiset Value := .long (2 ^ 62) ::ₘ .null .long ::ₘ 0
    let t : Multiset Value := .long (-2 ^ 62) ::ₘ 0
    let i : IntegerCounter := ((IntegerCounter.empty.add none).add (some (2 ^ 62))).merge
      (IntegerCounter.empty.add (some (-2 ^ 62)))
    Collected .long (s + t) ⟨.long, .integer i⟩ ∧ i.present = 2 ∧
      i.varianceNumerator? = some (2 ^ 126) ∧
      i.ExactVariance ((s + t).filterMap Value.integer?) (2 ^ 126) := by
  intro s t i
  have collected : Collected .long (s + t) ⟨.long, .integer i⟩ :=
    .merge (.add (.add .start rfl) rfl) (.add .start rfl) rfl
  have hnumerator : i.varianceNumerator? = some (2 ^ 126) := by decide +kernel
  obtain ⟨-, -, -, -, hexact⟩ := variance_exact .long _ _ collected i rfl (by decide) (by decide)
  exact ⟨collected, rfl, hnumerator, hexact _ hnumerator⟩

end Counter

end Tabular
