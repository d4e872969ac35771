import Tabular.Statistics.Text

namespace Tabular

/-- How often a label has been counted. -/
def countOf (label : String) : List (String × Nat) → Nat
  | [] => 0
  | p :: counts => (if p.1 = label then p.2 else 0) + countOf label counts

theorem countOf_cons (label : String) (p : String × Nat) (counts : List (String × Nat)) :
    countOf label (p :: counts) = (if p.1 = label then p.2 else 0) + countOf label counts :=
  rfl

theorem countOf_eq_zero {label : String} {counts : List (String × Nat)}
    (h : ∀ p ∈ counts, p.1 ≠ label) : countOf label counts = 0 := by
  induction counts with
  | nil => rfl
  | cons p counts ih =>
    rw [countOf_cons, if_neg (h p List.mem_cons_self), Nat.zero_add]
    exact ih fun q hq => h q (List.mem_cons_of_mem p hq)

theorem countOf_addCount (label other : String) (n : Nat) (counts : List (String × Nat)) :
    countOf label (addCount other n counts) =
      countOf label counts + if other = label then n else 0 := by
  fun_induction addCount other n counts with
  | case1 => simp only [countOf_cons, Nat.add_comm]
  | case2 next m rest hlt => simp only [countOf_cons]; omega
  | case3 next m rest heq =>
    rw [Std.compare_eq_iff_eq.1 heq]
    simp only [countOf_cons]
    split <;> omega
  | case4 next m rest hgt ih =>
    simp only [countOf_cons, ih]
    omega

theorem countOf_merge (label : String) (counts others : List (String × Nat)) :
    countOf label (others.foldl (fun counts p => addCount p.1 p.2 counts) counts) =
      countOf label counts + countOf label others := by
  induction others generalizing counts with
  | nil => rfl
  | cons p others ih =>
    rw [List.foldl_cons, ih, countOf_addCount, countOf_cons, Nat.add_assoc]

/-- Labels in ascending order, each of them counted at least once. -/
structure Ascending (counts : List (String × Nat)) : Prop where
  sorted : counts.Pairwise fun p q => compare p.1 q.1 = .lt
  positive : ∀ p ∈ counts, 0 < p.2

theorem Ascending.nil : Ascending [] := ⟨.nil, by simp⟩

theorem Ascending.tail {p : String × Nat} {counts : List (String × Nat)}
    (h : Ascending (p :: counts)) : Ascending counts :=
  ⟨h.sorted.tail, fun q hq => h.positive q (List.mem_cons_of_mem p hq)⟩

theorem mem_addCount {label : String} {n : Nat} {counts : List (String × Nat)} {p : String × Nat}
    (hp : p ∈ addCount label n counts) : p.1 = label ∨ ∃ q ∈ counts, p.1 = q.1 := by
  fun_induction addCount label n counts with
  | case1 => grind
  | case2 other m rest hlt => grind
  | case3 other m rest heq => grind
  | case4 other m rest hgt ih => grind

theorem Ascending.addCount {counts : List (String × Nat)} (h : Ascending counts) (label : String)
    {n : Nat} (hn : 0 < n) : Ascending (addCount label n counts) := by
  fun_induction Tabular.addCount label n counts with
  | case1 => exact ⟨List.pairwise_singleton _ _, by simpa using hn⟩
  | case2 other m rest hlt =>
    refine ⟨List.pairwise_cons.2 ⟨?_, h.sorted⟩, ?_⟩
    · intro p hp
      rcases List.mem_cons.1 hp with rfl | hp
      · exact hlt
      · exact Std.TransCmp.lt_trans hlt (List.rel_of_pairwise_cons h.sorted hp)
    · intro p hp
      rcases List.mem_cons.1 hp with rfl | hp
      · exact hn
      · exact h.positive p hp
  | case3 other m rest heq =>
    refine ⟨List.pairwise_cons.2 ⟨?_, h.sorted.tail⟩, ?_⟩
    · intro p hp
      exact List.rel_of_pairwise_cons h.sorted hp
    · intro p hp
      rcases List.mem_cons.1 hp with rfl | hp
      · exact Nat.add_pos_right m hn
      · exact h.tail.positive p hp
  | case4 other m rest hgt ih =>
    have hrest := ih h.tail
    refine ⟨List.pairwise_cons.2 ⟨?_, hrest.sorted⟩, ?_⟩
    · intro p hp
      rcases mem_addCount hp with he | ⟨q, hq, he⟩
      · rw [he]
        exact Std.OrientedCmp.gt_iff_lt.1 hgt
      · rw [he]
        exact List.rel_of_pairwise_cons h.sorted hq
    · intro p hp
      rcases List.mem_cons.1 hp with rfl | hp
      · exact h.positive _ List.mem_cons_self
      · exact hrest.positive p hp

theorem Ascending.merge {counts others : List (String × Nat)} (h : Ascending counts)
    (hpositive : ∀ p ∈ others, 0 < p.2) :
    Ascending (others.foldl (fun counts p => Tabular.addCount p.1 p.2 counts) counts) := by
  induction others generalizing counts with
  | nil => exact h
  | cons p others ih =>
    exact ih (h.addCount p.1 (hpositive p List.mem_cons_self))
      fun q hq => hpositive q (List.mem_cons_of_mem p hq)

theorem Ascending.countOf_of_lt {label : String} {p : String × Nat} {counts : List (String × Nat)}
    (h : Ascending (p :: counts)) (hlt : compare label p.1 = .lt) :
    countOf label (p :: counts) = 0 := by
  apply countOf_eq_zero
  intro q hq he
  have hself : compare label label = .lt := by
    rcases List.mem_cons.1 hq with rfl | hq
    · rw [he] at hlt
      exact hlt
    · have hpq := List.rel_of_pairwise_cons h.sorted hq
      rw [he] at hpq
      exact Std.TransCmp.lt_trans hlt hpq
  rw [Std.compare_self] at hself
  cases hself

theorem Ascending.countOf_head {p : String × Nat} {counts : List (String × Nat)}
    (h : Ascending (p :: counts)) : countOf p.1 (p :: counts) = p.2 := by
  have hrest : countOf p.1 counts = 0 := by
    apply countOf_eq_zero
    intro q hq he
    have hself := List.rel_of_pairwise_cons h.sorted hq
    rw [he, Std.compare_self] at hself
    cases hself
  rw [countOf_cons, if_pos rfl, hrest, Nat.add_zero]

theorem Ascending.countOf_head_pos {p : String × Nat} {counts : List (String × Nat)}
    (h : Ascending (p :: counts)) : 0 < countOf p.1 (p :: counts) := by
  rw [h.countOf_head]
  exact h.positive p List.mem_cons_self

theorem Ascending.unique {counts others : List (String × Nat)} (h : Ascending counts)
    (h' : Ascending others) (heq : ∀ label, countOf label counts = countOf label others) :
    counts = others := by
  induction counts generalizing others with
  | nil =>
    cases others with
    | nil => rfl
    | cons q others => exact absurd (heq q.1).symm (Nat.ne_of_gt h'.countOf_head_pos)
  | cons p counts ih =>
    cases others with
    | nil => exact absurd (heq p.1) (Nat.ne_of_gt h.countOf_head_pos)
    | cons q others =>
      cases hpq : compare p.1 q.1 with
      | lt =>
        have hpos := h.countOf_head_pos
        rw [heq, h'.countOf_of_lt hpq] at hpos
        exact absurd hpos (Nat.lt_irrefl 0)
      | gt =>
        have hpos := h'.countOf_head_pos
        rw [← heq, h.countOf_of_lt (Std.OrientedCmp.gt_iff_lt.1 hpq)] at hpos
        exact absurd hpos (Nat.lt_irrefl 0)
      | eq =>
        have hlabel : p.1 = q.1 := Std.compare_eq_iff_eq.1 hpq
        have hcount : p.2 = q.2 := by
          rw [← h.countOf_head, heq, hlabel, h'.countOf_head]
        have hp : p = q := Prod.ext hlabel hcount
        rw [hp] at heq ⊢
        rw [ih h.tail h'.tail fun label => ?_]
        have hrest := heq label
        rw [countOf_cons, countOf_cons] at hrest
        exact Nat.add_left_cancel hrest

end Tabular
