import Mathlib.Algebra.BigOperators.Group.Multiset.Basic
import Mathlib.Tactic.Linarith
import Tabular.Proofs.Statistics.Extremes
import Tabular.Statistics.Integer

namespace Tabular

theorem card_filterMap_le {α β : Type} (f : α → Option β) (s : Multiset α) :
    (s.filterMap f).card ≤ s.card :=
  Quot.inductionOn s fun xs => List.length_filterMap_le f xs

/-- The values of a column that are not missing. -/
def known {α : Type} (s : Multiset (Option α)) : Multiset α := s.filterMap id

section known

variable {α : Type} (s t : Multiset (Option α))

theorem known_cons_none : known (none ::ₘ s) = known s :=
  Multiset.filterMap_cons_none none s rfl

theorem known_cons_some (v : α) : known (some v ::ₘ s) = v ::ₘ known s :=
  Multiset.filterMap_cons_some id (some v) s rfl

theorem known_add : known (s + t) = known s + known t :=
  Multiset.filterMap_add id s t

theorem card_known_le : (known s).card ≤ s.card := card_filterMap_le id s

end known

theorem succ_if_eq_countP {α : Type} {p : α → Prop} [DecidablePred p] {values : Multiset α}
    {n : Nat} (hn : n = values.countP p) (v : α) :
    (if p v then n + 1 else n) = (v ::ₘ values).countP p := by
  rw [Multiset.countP_cons, ← hn]
  split <;> rfl

theorem clamp128_of_fits {n : Int} (hlow : -2 ^ 127 ≤ n) (hhigh : n < 2 ^ 127) :
    clamp128 n = n := by
  rw [clamp128, clamp]
  omega

theorem clamp128_add_clamp128 {m n : Int} (hm : 0 ≤ m) (hn : 0 ≤ n) :
    clamp128 (clamp128 m + clamp128 n) = clamp128 (m + n) := by
  simp only [clamp128, clamp]
  omega

theorem clamp128_add_square {m : Int} (hm : 0 ≤ m) {v : Int} :
    clamp128 (clamp128 m + v * v) = clamp128 (m + v * v) := by
  have hv := mul_self_nonneg v
  generalize v * v = n at *
  simp only [clamp128, clamp]
  omega

theorem orders_orderInt64 : Extremes.Orders (fun _ => True) orderInt64 :=
  Extremes.orders_of_key Int64.toInt (fun _ _ => rfl) fun _ _ h => Int64.toInt_inj.1 h

namespace IntegerCounter

def exactSum (values : Multiset Int64) : Int := (values.map Int64.toInt).sum

def exactSquares (values : Multiset Int64) : Int := (values.map fun v => v.toInt * v.toInt).sum

theorem exactSum_bounds (values : Multiset Int64) :
    -2 ^ 63 * (values.card : Int) ≤ exactSum values ∧
      exactSum values ≤ (2 ^ 63 - 1) * (values.card : Int) := by
  induction values using Multiset.induction_on with
  | empty => simp [exactSum]
  | cons v values ih =>
    have hlow := v.le_toInt
    have hhigh := v.toInt_lt
    simp only [exactSum, Multiset.map_cons, Multiset.sum_cons, Multiset.card_cons] at *
    push_cast
    constructor <;> linarith

theorem exactSum_fits {values : Multiset Int64} (h : values.card < 2 ^ 64) :
    -2 ^ 127 ≤ exactSum values ∧ exactSum values < 2 ^ 127 := by
  have hb := exactSum_bounds values
  omega

theorem exactSquares_nonneg (values : Multiset Int64) : 0 ≤ exactSquares values := by
  induction values using Multiset.induction_on with
  | empty => simp [exactSquares]
  | cons v values ih =>
    have hv := mul_self_nonneg v.toInt
    simp only [exactSquares, Multiset.map_cons, Multiset.sum_cons] at *
    linarith

/-- An integer counter holds the statistics of some values and missing values. -/
structure Summarizes (c : IntegerCounter) (s : Multiset (Option Int64)) : Prop where
  total : c.total = s.card
  missing : c.missing = s.count none
  zero : c.zero = (known s).countP fun v => v.toInt = 0
  positive : c.positive = (known s).countP fun v => 0 < v.toInt
  negative : c.negative = (known s).countP fun v => v.toInt < 0
  extremes : c.extremes.Summarizes orderInt64 (known s)
  sum : c.sum = exactSum (known s)
  sumSquares : c.sumSquares = clamp128 (exactSquares (known s))

theorem Summarizes.empty : Summarizes .empty 0 where
  total := rfl
  missing := rfl
  zero := rfl
  positive := rfl
  negative := rfl
  extremes := .empty
  sum := rfl
  sumSquares := rfl

theorem Summarizes.unique {c d : IntegerCounter} {s : Multiset (Option Int64)}
    (hc : c.Summarizes s) (hd : d.Summarizes s) : c = d := by
  have hextremes := hc.extremes.unique orders_orderInt64 (fun _ _ => trivial) hd.extremes
  obtain ⟨total, missing, zeros, positive, negative, extremes, sum, sumSquares⟩ := c
  rw [mk.injEq]
  exact ⟨hc.total.trans hd.total.symm, hc.missing.trans hd.missing.symm, hc.zero.trans hd.zero.symm,
    hc.positive.trans hd.positive.symm, hc.negative.trans hd.negative.symm, hextremes,
    hc.sum.trans hd.sum.symm, hc.sumSquares.trans hd.sumSquares.symm⟩

theorem Summarizes.addMissing {c : IntegerCounter} {s : Multiset (Option Int64)}
    (h : c.Summarizes s) : (c.add none).Summarizes (none ::ₘ s) where
  total := by rw [Multiset.card_cons, ← h.total, add]
  missing := by rw [Multiset.count_cons_self, ← h.missing, add]
  zero := known_cons_none s ▸ h.zero
  positive := known_cons_none s ▸ h.positive
  negative := known_cons_none s ▸ h.negative
  extremes := known_cons_none s ▸ h.extremes
  sum := known_cons_none s ▸ h.sum
  sumSquares := known_cons_none s ▸ h.sumSquares

theorem Summarizes.addPresent {c : IntegerCounter} {s : Multiset (Option Int64)}
    (h : c.Summarizes s) {v : Int64} (few : (known (some v ::ₘ s)).card < 2 ^ 64) :
    (c.add (some v)).Summarizes (some v ::ₘ s) := by
  have hp := known_cons_some s v
  have hfits := exactSum_fits few
  constructor
  case total =>
    rw [Multiset.card_cons, ← h.total, add, IntegerCounter.addPresent]
  case missing =>
    rw [Multiset.count_cons_of_ne (by simp), ← h.missing, add, IntegerCounter.addPresent]
  case zero =>
    rw [hp]
    exact succ_if_eq_countP h.zero v
  case positive =>
    rw [hp]
    exact succ_if_eq_countP h.positive v
  case negative =>
    rw [hp]
    exact succ_if_eq_countP h.negative v
  case extremes =>
    rw [hp]
    exact h.extremes.observe orders_orderInt64 (fun _ _ => trivial) trivial
  case sum =>
    rw [← clamp128_of_fits hfits.1 hfits.2, hp]
    simp only [add, IntegerCounter.addPresent, exactSum, Multiset.map_cons, Multiset.sum_cons,
      h.sum]
    rw [add_comm]
  case sumSquares =>
    have hsquares := exactSquares_nonneg (known s)
    rw [hp]
    simp only [add, IntegerCounter.addPresent, h.sumSquares, clamp128_add_square hsquares]
    rw [exactSquares, exactSquares, Multiset.map_cons, Multiset.sum_cons, add_comm]

theorem Summarizes.add {c : IntegerCounter} {s : Multiset (Option Int64)} (h : c.Summarizes s)
    {v : Option Int64} (few : (known (v ::ₘ s)).card < 2 ^ 64) :
    (c.add v).Summarizes (v ::ₘ s) := by
  cases v with
  | none => exact h.addMissing
  | some v => exact h.addPresent few

theorem Summarizes.merge {a b : IntegerCounter} {s t : Multiset (Option Int64)}
    (ha : a.Summarizes s) (hb : b.Summarizes t) (few : (known (s + t)).card < 2 ^ 64) :
    (a.merge b).Summarizes (s + t) := by
  have hp := known_add s t
  have hfits := exactSum_fits few
  constructor
  case total =>
    rw [Multiset.card_add, ← ha.total, ← hb.total, IntegerCounter.merge]
  case missing =>
    rw [Multiset.count_add, ← ha.missing, ← hb.missing, IntegerCounter.merge]
  case zero =>
    rw [hp, Multiset.countP_add, ← ha.zero, ← hb.zero, IntegerCounter.merge]
  case positive =>
    rw [hp, Multiset.countP_add, ← ha.positive, ← hb.positive, IntegerCounter.merge]
  case negative =>
    rw [hp, Multiset.countP_add, ← ha.negative, ← hb.negative, IntegerCounter.merge]
  case extremes =>
    rw [hp]
    exact ha.extremes.merge orders_orderInt64 (fun _ _ => trivial) (fun _ _ => trivial) hb.extremes
  case sum =>
    rw [← clamp128_of_fits hfits.1 hfits.2, hp]
    simp only [IntegerCounter.merge, exactSum, Multiset.map_add, Multiset.sum_add, ha.sum, hb.sum]
  case sumSquares =>
    rw [hp]
    simp only [IntegerCounter.merge, ha.sumSquares, hb.sumSquares,
      clamp128_add_clamp128 (exactSquares_nonneg _) (exactSquares_nonneg _)]
    rw [exactSquares, exactSquares, exactSquares, Multiset.map_add, Multiset.sum_add]

end IntegerCounter

end Tabular
