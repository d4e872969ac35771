import Mathlib.Algebra.Order.Group.Multiset
import Tabular.Statistics.Extremes

namespace Tabular.Extremes

variable {α : Type} {order : α → α → Ordering} {D : α → Prop}

/-- A linear order of the values that satisfy `D`. -/
structure Orders (D : α → Prop) (order : α → α → Ordering) : Prop where
  refl {a : α} : D a → order a a = .eq
  eq_of_tie {a b : α} : D a → D b → order a b = .eq → a = b
  swap {a b : α} : D a → D b → order b a = (order a b).swap
  trans {a b c : α} : D a → D b → D c → order a b = .lt → order b c = .lt → order a c = .lt

theorem orders_of_key (key : α → Int)
    (horder : ∀ {a b}, D a → D b → order a b = compare (key a) (key b))
    (hkey : ∀ {a b}, D a → D b → key a = key b → a = b) : Orders D order where
  refl ha := by rw [horder ha ha, Int.compare_eq_eq]
  eq_of_tie ha hb h := by
    rw [horder ha hb, Int.compare_eq_eq] at h
    exact hkey ha hb h
  swap ha hb := by rw [horder hb ha, horder ha hb, Int.compare_swap]
  trans ha hb hc hab hbc := by
    rw [horder ha hb, Int.compare_eq_lt] at hab
    rw [horder hb hc, Int.compare_eq_lt] at hbc
    rw [horder ha hc, Int.compare_eq_lt]
    exact Int.lt_trans hab hbc

theorem Orders.better_of_ne (h : Orders D order) {better : Ordering} {a b : α} (ha : D a) (hb : D b)
    (hne : order a b ≠ .eq) (hnb : order a b ≠ better) (hbetter : better ≠ .eq) :
    order b a = better := by
  rw [h.swap ha hb]
  cases hab : order a b <;> cases better <;> simp_all

theorem Orders.better_trans (h : Orders D order) {better : Ordering} {a b c : α} (ha : D a)
    (hb : D b) (hc : D c) (hbetter : better ≠ .eq) (hab : order a b = better)
    (hbc : order b c = better) : order a c = better := by
  cases better with
  | lt => exact h.trans ha hb hc hab hbc
  | eq => exact absurd rfl hbetter
  | gt =>
    have hba : order b a = .lt := by rw [h.swap ha hb, hab]; rfl
    have hcb : order c b = .lt := by rw [h.swap hb hc, hbc]; rfl
    rw [h.swap hc ha, h.trans hc hb ha hcb hba]
    rfl

variable [DecidableEq α] {better : Ordering} {s t : Multiset α} {p q : Option α × Nat}

/-- The best value of a collection with the number of its occurrences, if there is a value. -/
def Best (order : α → α → Ordering) (better : Ordering) (s : Multiset α) : Option α × Nat → Prop
  | (none, n) => s = 0 ∧ n = 0
  | (some m, n) => m ∈ s ∧ (∀ v ∈ s, order v m ≠ better) ∧ n = s.count m

theorem Best.unique (h : Orders D order) (hbetter : better ≠ .eq) (hs : ∀ v ∈ s, D v)
    (hp : Best order better s p) (hq : Best order better s q) : p = q := by
  obtain ⟨_ | m, a⟩ := p <;> obtain ⟨_ | n, b⟩ := q
  · rw [hp.2, hq.2]
  · rw [hp.1] at hq
    exact absurd hq.1 (Multiset.notMem_zero n)
  · rw [hq.1] at hp
    exact absurd hp.1 (Multiset.notMem_zero m)
  · obtain ⟨hm, hbest, rfl⟩ := hp
    obtain ⟨hn, hbest', rfl⟩ := hq
    have htie : order m n = .eq := by
      by_contra hne
      exact hbest n hn (h.better_of_ne (hs m hm) (hs n hn) hne (hbest' m hm) hbetter)
    rw [h.eq_of_tie (hs m hm) (hs n hn) htie]

/-- A value that is better than the best one of a collection does not occur in it. -/
theorem Best.count_eq_zero {m n : α} {k : Nat} (hp : Best order better s (some n, k))
    (hmn : order m n = better) : s.count m = 0 :=
  Multiset.count_eq_zero.2 fun hm => hp.2.1 m hm hmn

theorem Best.not_better (h : Orders D order) (hbetter : better ≠ .eq) (hs : ∀ v ∈ s, D v) {m n : α}
    {k : Nat} (hm : D m) (hp : Best order better s (some n, k)) (hmn : order m n = better) :
    ∀ v ∈ s, order v m ≠ better :=
  fun v hv hvm => hp.2.1 v hv (h.better_trans (hs v hv) hm (hs n hp.1) hbetter hvm hmn)

theorem Best.merge (h : Orders D order) (hbetter : better ≠ .eq) (hs : ∀ v ∈ s, D v)
    (ht : ∀ v ∈ t, D v) (hp : Best order better s p) (hq : Best order better t q) :
    Best order better (s + t) (mergeOne order better p q) := by
  obtain ⟨_ | m, a⟩ := p
  · rw [hp.1, zero_add]
    exact hq
  obtain ⟨_ | n, b⟩ := q
  · rw [hq.1, add_zero]
    exact hp
  have hm := hs m hp.1
  have hn := ht n hq.1
  simp only [mergeOne]
  split
  · next htie =>
    cases h.eq_of_tie hm hn htie
    refine ⟨Multiset.mem_add.2 (.inl hp.1), fun v hv => ?_, ?_⟩
    · exact (Multiset.mem_add.1 hv).elim (hp.2.1 v) (hq.2.1 v)
    · rw [Multiset.count_add, ← hp.2.2, ← hq.2.2]
  · next hne =>
    split
    · next hmn =>
      refine ⟨Multiset.mem_add.2 (.inl hp.1), fun v hv => ?_, ?_⟩
      · exact (Multiset.mem_add.1 hv).elim (hp.2.1 v) (hq.not_better h hbetter ht hm hmn v)
      · rw [Multiset.count_add, ← hp.2.2, hq.count_eq_zero hmn, Nat.add_zero]
    · next hmn =>
      have hnm := h.better_of_ne hm hn hne hmn hbetter
      refine ⟨Multiset.mem_add.2 (.inr hq.1), fun v hv => ?_, ?_⟩
      · exact (Multiset.mem_add.1 hv).elim (hp.not_better h hbetter hs hn hnm v) (hq.2.1 v)
      · rw [Multiset.count_add, hp.count_eq_zero hnm, ← hq.2.2, Nat.zero_add]

theorem Best.singleton (h : Orders D order) (hbetter : better ≠ .eq) {v : α} (hv : D v) :
    Best order better {v} (some v, 1) := by
  refine ⟨Multiset.mem_singleton_self v, fun w hw => ?_, ?_⟩
  · rw [Multiset.mem_singleton.1 hw, h.refl hv]
    exact hbetter.symm
  · rw [Multiset.count_singleton_self]

/-- Seeing one more value is merging with what that value alone amounts to. -/
theorem observeOne_eq_mergeOne (h : Orders D order) (hs : ∀ v ∈ s, D v) {v : α} (hv : D v)
    (hp : Best order better s p) :
    observeOne order better p.1 p.2 v = mergeOne order better (some v, 1) p := by
  obtain ⟨_ | m, a⟩ := p
  · rfl
  · simp only [observeOne, mergeOne]
    split
    · next htie => rw [h.eq_of_tie hv (hs m hp.1) htie, Nat.add_comm]
    · rfl

theorem Best.observe (h : Orders D order) (hbetter : better ≠ .eq) (hs : ∀ v ∈ s, D v) {v : α}
    (hv : D v) (hp : Best order better s p) :
    Best order better (v ::ₘ s) (observeOne order better p.1 p.2 v) := by
  rw [observeOne_eq_mergeOne h hs hv hp, ← Multiset.singleton_add]
  have hsingle : ∀ w ∈ ({v} : Multiset α), D w := by
    intro w hw
    rw [Multiset.mem_singleton.1 hw]
    exact hv
  exact (Best.singleton h hbetter hv).merge h hbetter hsingle hs hp

/-- Extremes hold the smallest and the largest value of a collection. -/
structure Summarizes (order : α → α → Ordering) (e : Extremes α) (s : Multiset α) : Prop where
  min : Best order .lt s (e.min, e.countMin)
  max : Best order .gt s (e.max, e.countMax)

theorem Summarizes.empty : Summarizes order (.empty : Extremes α) 0 :=
  ⟨⟨rfl, rfl⟩, ⟨rfl, rfl⟩⟩

theorem Summarizes.unique (h : Orders D order) (hs : ∀ v ∈ s, D v) {e f : Extremes α}
    (he : e.Summarizes order s) (hf : f.Summarizes order s) : e = f := by
  have hmin := he.min.unique h (by decide) hs hf.min
  have hmax := he.max.unique h (by decide) hs hf.max
  rw [Prod.mk.injEq] at hmin hmax
  obtain ⟨min, max, countMin, countMax⟩ := e
  rw [mk.injEq]
  exact ⟨hmin.1, hmax.1, hmin.2, hmax.2⟩

theorem Summarizes.observe (h : Orders D order) (hs : ∀ v ∈ s, D v) {v : α} (hv : D v)
    {e : Extremes α} (he : e.Summarizes order s) :
    (e.observe order v).Summarizes order (v ::ₘ s) :=
  ⟨he.min.observe h (by decide) hs hv, he.max.observe h (by decide) hs hv⟩

theorem Summarizes.merge (h : Orders D order) (hs : ∀ v ∈ s, D v) (ht : ∀ v ∈ t, D v)
    {e f : Extremes α} (he : e.Summarizes order s) (hf : f.Summarizes order t) :
    (e.merge order f).Summarizes order (s + t) :=
  ⟨he.min.merge h (by decide) hs ht hf.min, he.max.merge h (by decide) hs ht hf.max⟩

end Tabular.Extremes
