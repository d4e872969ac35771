import Mathlib.Data.Multiset.Bind
import Tabular.Proofs.Statistics.ExactSum
import Tabular.Proofs.Statistics.Integer
import Tabular.Statistics.Double

namespace Tabular

theorem orders_compareReals :
    Extremes.Orders (Binary.IsCanonical (f := .binary64)) compareReals := by
  apply Extremes.orders_of_key Binary.orderKey
  · intro a b ha hb
    simp only [compareReals, Binary.compare?, ha.1, hb.1, Bool.or_self, Bool.false_eq_true,
      ↓reduceIte, Option.getD_some]
  · intro a b ha hb h
    exact ha.eq_of_orderKey hb h

namespace DoubleCounter

/-- The numbers that a counter takes into account, without negative zeros. -/
def numbers (s : Multiset (Option Double)) : Multiset Double :=
  ((known s).filter fun v => v.isNaN = false).map fun v => v.add .zero

theorem isCanonical_of_mem_numbers {s : Multiset (Option Double)} {x : Double}
    (h : x ∈ numbers s) : x.IsCanonical := by
  obtain ⟨v, hv, rfl⟩ := Multiset.mem_map.1 h
  exact Binary.isCanonical_add_zero (Multiset.mem_filter.1 hv).2

theorem numbers_cons_none (s : Multiset (Option Double)) : numbers (none ::ₘ s) = numbers s := by
  rw [numbers, known_cons_none, numbers]

theorem numbers_cons_nan {v : Double} (hv : v.isNaN = true) (s : Multiset (Option Double)) :
    numbers (some v ::ₘ s) = numbers s := by
  have hfilter := Multiset.filter_cons_of_neg (p := fun v : Double => v.isNaN = false) (known s)
    (by rw [hv]; exact Bool.noConfusion)
  rw [numbers, known_cons_some, hfilter, numbers]

theorem numbers_cons {v : Double} (hv : v.isNaN = false) (s : Multiset (Option Double)) :
    numbers (some v ::ₘ s) = v.add .zero ::ₘ numbers s := by
  have hfilter := Multiset.filter_cons_of_pos (p := fun v : Double => v.isNaN = false) (known s) hv
  rw [numbers, known_cons_some, hfilter, Multiset.map_cons, numbers]

theorem numbers_add (s t : Multiset (Option Double)) :
    numbers (s + t) = numbers s + numbers t := by
  rw [numbers, known_add, Multiset.filter_add, Multiset.map_add, numbers, numbers]

/-- The exact square of a number in parts: the rounded square, and what rounding left off. -/
def squareParts (x : Double) : Multiset Double :=
  if (x.mul x).isFinite then {x.mulAdd x (x.mul x).neg, x.mul x} else {x.mul x}

theorem Summarizes.addSquare {e : ExactSum} {others : Multiset Double}
    (h : e.Summarizes others) {x : Double} (hx : x.isNaN = false) :
    (DoubleCounter.addSquare e x).Summarizes (squareParts x + others) := by
  have hsquare := h.add (Binary.mul_self_isNaN hx)
  unfold DoubleCounter.addSquare squareParts
  simp only
  split
  · next hfinite =>
    have hrest := Binary.mulAdd_self_isNaN (Binary.isFinite_of_mul_self hx hfinite) hfinite
    rw [Multiset.insert_eq_cons, Multiset.cons_add, Multiset.singleton_add]
    exact hsquare.add hrest
  · rw [Multiset.singleton_add]
    exact hsquare

/-- A counter holds the statistics of some numbers, NaN values and missing values. -/
structure Summarizes (c : DoubleCounter) (s : Multiset (Option Double)) : Prop where
  total : c.total = s.card
  missing : c.missing = s.count none
  nan : c.nan = (known s).countP fun v => v.isNaN = true
  zero : c.zero = (numbers s).countP fun x => x.isZero = true
  positive : c.positive = (numbers s).countP fun x => x.isPositive = true
  negative : c.negative = (numbers s).countP fun x => ¬(x.isZero || x.isPositive) = true
  extremes : c.extremes.Summarizes compareReals (numbers s)
  sum : c.sum.Summarizes (numbers s)
  sumSquares : c.sumSquares.Summarizes ((numbers s).bind squareParts)

theorem Summarizes.empty : Summarizes .empty 0 where
  total := rfl
  missing := rfl
  nan := rfl
  zero := rfl
  positive := rfl
  negative := rfl
  extremes := .empty
  sum := .empty
  sumSquares := .empty

theorem Summarizes.unique {c d : DoubleCounter} {s : Multiset (Option Double)}
    (hc : c.Summarizes s) (hd : d.Summarizes s) : c = d := by
  have hextremes := hc.extremes.unique orders_compareReals
    (fun _ hx => isCanonical_of_mem_numbers hx) hd.extremes
  obtain ⟨total, missing, nan, zeros, positive, negative, extremes, sum, sumSquares⟩ := c
  rw [mk.injEq]
  exact ⟨hc.total.trans hd.total.symm, hc.missing.trans hd.missing.symm, hc.nan.trans hd.nan.symm,
    hc.zero.trans hd.zero.symm, hc.positive.trans hd.positive.symm,
    hc.negative.trans hd.negative.symm, hextremes, hc.sum.unique hd.sum,
    hc.sumSquares.unique hd.sumSquares⟩

theorem Summarizes.addMissing {c : DoubleCounter} {s : Multiset (Option Double)}
    (h : c.Summarizes s) : (c.add none).Summarizes (none ::ₘ s) where
  total := by rw [Multiset.card_cons, ← h.total, add]
  missing := by rw [Multiset.count_cons_self, ← h.missing, add]
  nan := known_cons_none s ▸ h.nan
  zero := numbers_cons_none s ▸ h.zero
  positive := numbers_cons_none s ▸ h.positive
  negative := numbers_cons_none s ▸ h.negative
  extremes := numbers_cons_none s ▸ h.extremes
  sum := numbers_cons_none s ▸ h.sum
  sumSquares := numbers_cons_none s ▸ h.sumSquares

theorem Summarizes.addNaN {c : DoubleCounter} {s : Multiset (Option Double)}
    (h : c.Summarizes s) {v : Double} (hv : v.isNaN = true) :
    (c.add (some v)).Summarizes (some v ::ₘ s) := by
  rw [add, if_pos hv]
  exact {
    total := by rw [Multiset.card_cons, ← h.total]
    missing := by rw [Multiset.count_cons_of_ne (Option.some_ne_none v).symm, ← h.missing]
    nan := by rw [known_cons_some, Multiset.countP_cons, if_pos hv, ← h.nan]
    zero := numbers_cons_nan hv s ▸ h.zero
    positive := numbers_cons_nan hv s ▸ h.positive
    negative := numbers_cons_nan hv s ▸ h.negative
    extremes := numbers_cons_nan hv s ▸ h.extremes
    sum := numbers_cons_nan hv s ▸ h.sum
    sumSquares := numbers_cons_nan hv s ▸ h.sumSquares }

theorem Summarizes.addNumber {c : DoubleCounter} {s : Multiset (Option Double)}
    (h : c.Summarizes s) {v : Double} (hv : v.isNaN = false) :
    (c.add (some v)).Summarizes (some v ::ₘ s) := by
  have hcanonical := Binary.isCanonical_add_zero hv
  have hn := numbers_cons hv s
  have hnot : ¬v.isNaN = true := by rw [hv]; exact Bool.noConfusion
  rw [add, if_neg hnot]
  constructor
  case total =>
    rw [Multiset.card_cons, ← h.total, DoubleCounter.addNumber]
  case missing =>
    rw [Multiset.count_cons_of_ne (Option.some_ne_none v).symm, ← h.missing,
      DoubleCounter.addNumber]
  case nan =>
    rw [known_cons_some, Multiset.countP_cons, if_neg hnot, ← h.nan, DoubleCounter.addNumber]
    rfl
  case zero =>
    rw [hn]
    exact succ_if_eq_countP h.zero _
  case positive =>
    rw [hn]
    exact succ_if_eq_countP h.positive _
  case negative =>
    rw [hn, ← succ_if_eq_countP h.negative, ite_not]
    rfl
  case extremes =>
    rw [hn]
    exact h.extremes.observe orders_compareReals (fun _ hx => isCanonical_of_mem_numbers hx)
      hcanonical
  case sum =>
    rw [hn]
    exact h.sum.add hcanonical.1
  case sumSquares =>
    rw [hn, Multiset.cons_bind]
    exact Summarizes.addSquare h.sumSquares hcanonical.1

theorem Summarizes.add {c : DoubleCounter} {s : Multiset (Option Double)} (h : c.Summarizes s)
    (v : Option Double) : (c.add v).Summarizes (v ::ₘ s) := by
  cases v with
  | none => exact h.addMissing
  | some v =>
    cases hv : v.isNaN with
    | true => exact h.addNaN hv
    | false => exact h.addNumber hv

theorem Summarizes.merge {a b : DoubleCounter} {s t : Multiset (Option Double)}
    (ha : a.Summarizes s) (hb : b.Summarizes t) : (a.merge b).Summarizes (s + t) := by
  have hk := known_add s t
  have hn := numbers_add s t
  constructor
  case total =>
    rw [Multiset.card_add, ← ha.total, ← hb.total, DoubleCounter.merge]
  case missing =>
    rw [Multiset.count_add, ← ha.missing, ← hb.missing, DoubleCounter.merge]
  case nan =>
    rw [hk, Multiset.countP_add, ← ha.nan, ← hb.nan, DoubleCounter.merge]
  case zero =>
    rw [hn, Multiset.countP_add, ← ha.zero, ← hb.zero, DoubleCounter.merge]
  case positive =>
    rw [hn, Multiset.countP_add, ← ha.positive, ← hb.positive, DoubleCounter.merge]
  case negative =>
    rw [hn, Multiset.countP_add, ← ha.negative, ← hb.negative, DoubleCounter.merge]
  case extremes =>
    rw [hn]
    exact ha.extremes.merge orders_compareReals (fun _ hx => isCanonical_of_mem_numbers hx)
      (fun _ hx => isCanonical_of_mem_numbers hx) hb.extremes
  case sum =>
    rw [hn]
    exact ha.sum.merge hb.sum
  case sumSquares =>
    rw [hn, Multiset.add_bind]
    exact ha.sumSquares.merge hb.sumSquares

end DoubleCounter

end Tabular
