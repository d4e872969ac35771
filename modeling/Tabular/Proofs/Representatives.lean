import Mathlib.Data.List.Forall2
import Mathlib.Data.List.Induction
import Mathlib.Data.List.Nodup

namespace Tabular

section Distinct

variable {κ : Type} [BEq κ] [LawfulBEq κ]

theorem eraseDups_concat (ks : List κ) (k : κ) :
    (ks ++ [k]).eraseDups = if k ∈ ks then ks.eraseDups else ks.eraseDups ++ [k] := by
  rw [List.eraseDups_append, List.removeAll]
  by_cases h : k ∈ ks
  · rw [if_pos h, List.filter_cons_of_neg (by simpa using h), List.filter_nil, List.eraseDups_nil,
      List.append_nil]
  · rw [if_neg h, List.filter_cons_of_pos (by simpa using h), List.filter_nil, List.eraseDups_cons,
      List.filter_nil, List.eraseDups_nil]

theorem nodup_eraseDups (ks : List κ) : ks.eraseDups.Nodup := by
  induction ks using List.reverseRecOn with
  | nil => exact List.nodup_nil
  | append_singleton ks k ih =>
    rw [eraseDups_concat]
    split
    · exact ih
    · next hnew =>
      have hfresh : k ∉ ks.eraseDups := mt List.mem_eraseDups.1 hnew
      rw [← List.concat_eq_append, List.nodup_concat]
      exact ⟨hfresh, ih⟩

end Distinct

section Classes

variable {α κ : Type} {same same' : α → α → Bool} {chosen xs : List α}

/-- Some elements of a list stand for its classes: no two of them are the same, and each element is
the same as one of them. -/
structure Represents (same : α → α → Bool) (chosen xs : List α) : Prop where
  sublist : chosen.Sublist xs
  apart : chosen.Pairwise fun x y => same x y = false
  covers : ∀ y ∈ xs, ∃ x ∈ chosen, same x y = true

theorem Represents.congr (h : Represents same chosen xs)
    (hsame : ∀ x ∈ xs, ∀ y ∈ xs, same x y = same' x y) : Represents same' chosen xs where
  sublist := h.sublist
  apart := by
    apply h.apart.imp_of_mem
    intro x y hx hy hapart
    rw [← hsame x (h.sublist.subset hx) y (h.sublist.subset hy), hapart]
  covers := by
    intro y hy
    obtain ⟨x, hx, hxy⟩ := h.covers y hy
    exact ⟨x, hx, (hsame x (h.sublist.subset hx) y hy).symm.trans hxy⟩

theorem Represents.concat_old (h : Represents same chosen xs) {x : α}
    (hold : ∃ y ∈ chosen, same y x = true) : Represents same chosen (xs ++ [x]) where
  sublist := h.sublist.trans (List.sublist_append_left xs [x])
  apart := h.apart
  covers := by
    intro y hy
    rcases List.mem_append.1 hy with hy | hy
    · exact h.covers y hy
    · cases List.mem_singleton.1 hy
      exact hold

theorem Represents.concat_new (h : Represents same chosen xs) {x : α}
    (hnew : ∀ y ∈ chosen, same y x = false) (hself : same x x = true) :
    Represents same (chosen ++ [x]) (xs ++ [x]) where
  sublist := h.sublist.append (List.Sublist.refl [x])
  apart := by
    apply List.pairwise_append.2
    refine ⟨h.apart, List.pairwise_singleton _ x, ?_⟩
    intro y hy z hz
    cases List.mem_singleton.1 hz
    exact hnew y hy
  covers := by
    intro y hy
    rcases List.mem_append.1 hy with hy | hy
    · obtain ⟨z, hz, hzy⟩ := h.covers y hy
      exact ⟨z, List.mem_append_left [x] hz, hzy⟩
    · cases List.mem_singleton.1 hy
      exact ⟨x, List.mem_append_right chosen (List.mem_singleton_self x), hself⟩

/-- The classes of a function have representatives, one for each of its values. -/
theorem exists_represents [BEq κ] [LawfulBEq κ] (f : α → κ) (xs : List α) :
    ∃ chosen, Represents (fun x y => f x == f y) chosen xs ∧
      chosen.map f = (xs.map f).eraseDups := by
  induction xs using List.reverseRecOn with
  | nil => exact ⟨[], ⟨.slnil, .nil, fun _ hy => absurd hy List.not_mem_nil⟩, rfl⟩
  | append_singleton xs x ih =>
    obtain ⟨chosen, h, hmap⟩ := ih
    rw [List.map_append, List.map_cons, List.map_nil, eraseDups_concat, ← hmap]
    by_cases hold : f x ∈ xs.map f
    · rw [if_pos hold]
      rw [← List.mem_eraseDups, ← hmap] at hold
      obtain ⟨old, hmem, heq⟩ := List.mem_map.1 hold
      exact ⟨chosen, h.concat_old ⟨old, hmem, beq_iff_eq.2 heq⟩, rfl⟩
    · rw [if_neg hold]
      refine ⟨chosen ++ [x], h.concat_new ?_ (beq_self_eq_true _), List.map_append⟩
      intro y hy
      apply beq_false_of_ne
      intro heq
      exact hold (heq ▸ List.mem_map_of_mem (h.sublist.subset hy))

end Classes

end Tabular
