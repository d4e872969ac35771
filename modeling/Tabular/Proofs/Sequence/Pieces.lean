import Mathlib.Data.List.SplitBy

namespace Tabular

variable {α : Type} {r : α → α → Bool} {xs : List α} {x y : α}

/-- A piece starts at a position of the whole: the pieces before it hold as many elements. -/
def StartsAt (pieces : List (List α)) (i : Nat) : Prop :=
  ∃ before piece after, pieces = before ++ piece :: after ∧ before.flatten.length = i

theorem startsAt_map {β : Type} (f : α → β) {pieces : List (List α)} {i : Nat} :
    StartsAt (pieces.map (List.map f)) i ↔ StartsAt pieces i := by
  constructor
  · rintro ⟨before, piece, after, hpieces, rfl⟩
    obtain ⟨earlier, rest, rfl, rfl, hrest⟩ := List.map_eq_append_iff.1 hpieces
    obtain ⟨start, later, rfl, -, -⟩ := List.map_eq_cons_iff.1 hrest
    refine ⟨earlier, start, later, rfl, ?_⟩
    rw [← List.map_flatten, List.length_map]
  · rintro ⟨before, piece, after, rfl, rfl⟩
    refine ⟨_, _, _, by rw [List.map_append, List.map_cons], ?_⟩
    rw [← List.map_flatten, List.length_map]

theorem splitBy_singleton (r : α → α → Bool) (x : α) : [x].splitBy r = [[x]] :=
  List.splitBy_of_isChain (List.cons_ne_nil x []) (List.isChain_singleton x)

/-- What holds of the last element of a list and the first of another one holds where they meet. -/
theorem forall_meet {xs ys : List α} {p : α → α → Prop} (hx : xs.getLast? = some x)
    (hy : ys.head? = some y) (h : p x y) : ∀ a ∈ xs.getLast?, ∀ b ∈ ys.head?, p a b := by
  intro a ha b hb
  rw [hx, Option.mem_some_iff] at ha
  rw [hy, Option.mem_some_iff] at hb
  rwa [← ha, ← hb]

theorem splitBy_concat_of_not (hr : r x y = false) :
    (xs ++ [x] ++ [y]).splitBy r = (xs ++ [x]).splitBy r ++ [[y]] := by
  rw [List.splitBy_append (forall_meet List.getLast?_concat List.head?_cons hr), splitBy_singleton]

theorem splitBy_concat_of_related {done : List (List α)} {current : List α}
    (h : (xs ++ [x]).splitBy r = done ++ [current]) (hr : r x y = true) :
    (xs ++ [x] ++ [y]).splitBy r = done ++ [current ++ [y]] := by
  obtain ⟨hflatten, hnil, hchain, hbetween⟩ := List.splitBy_eq_iff.1 h
  rw [List.flatten_append, List.flatten_singleton] at hflatten
  rw [List.mem_append, List.mem_singleton, not_or] at hnil
  obtain ⟨hdone, hsingle, hlast⟩ := List.isChain_append.1 hbetween
  have hx : current.getLast? = some x := by
    have hwhole := congrArg List.getLast? hflatten
    rw [List.getLast?_concat, List.getLast?_append_of_ne_nil _ (Ne.symm hnil.2)] at hwhole
    exact hwhole.symm
  refine List.splitBy_eq_iff.2 ⟨?_, ?_, ?_, ?_⟩
  · rw [hflatten, List.flatten_append, List.flatten_singleton, List.append_assoc]
  · simp [hnil.1]
  · intro piece hpiece
    rcases List.mem_append.1 hpiece with hpiece | hpiece
    · exact hchain piece (List.mem_append_left _ hpiece)
    · rw [List.mem_singleton.1 hpiece, List.isChain_append]
      exact ⟨hchain current (by simp), List.isChain_singleton y, forall_meet hx List.head?_cons hr⟩
  · refine List.isChain_append.2 ⟨hdone, List.isChain_singleton _, fun a ha b hb => ?_⟩
    rw [List.head?_cons, Option.mem_some_iff] at hb
    subst hb
    obtain ⟨hne, hne', hab⟩ := hlast a ha current (by simp)
    exact ⟨hne, by simp, by rwa [List.head_append_of_ne_nil hne']⟩

theorem getElem?_flatten_head (before after : List (List α)) {piece : List α} (hne : piece ≠ []) :
    (before ++ piece :: after).flatten[before.flatten.length]? = piece.head? := by
  rw [List.flatten_append, List.getElem?_append_right le_rfl, Nat.sub_self,
    ← List.head?_eq_getElem?, List.flatten_cons, List.head?_append_of_ne_nil _ hne]

theorem getElem?_flatten_getLast {before : List (List α)} (after : List (List α)) {piece : List α}
    (hne : piece ≠ []) {i : Nat} (hi : (before ++ [piece]).flatten.length = i + 1) :
    ((before ++ [piece]) ++ after).flatten[i]? = piece.getLast? := by
  have hlast : i = (before ++ [piece]).flatten.length - 1 := by rw [hi, Nat.add_sub_cancel]
  rw [List.flatten_append, List.getElem?_append_left (by omega), hlast, ← List.getLast?_eq_getElem?,
    List.flatten_append, List.flatten_singleton, List.getLast?_append_of_ne_nil _ hne]

theorem startsAt_splitBy {i : Nat} (hx : xs[i]? = some x) (hy : xs[i + 1]? = some y) :
    StartsAt (xs.splitBy r) (i + 1) ↔ r x y = false := by
  constructor
  · rintro ⟨before, piece, after, hpieces, hlength⟩
    have hbetween := List.isChain_getLast_head_splitBy r xs
    have hflatten := List.flatten_splitBy r xs
    rw [hpieces] at hbetween hflatten
    rcases List.eq_nil_or_concat before with rfl | ⟨earlier, last, rfl⟩
    · cases hlength
    rw [List.concat_eq_append] at hbetween hflatten hlength
    obtain ⟨-, -, hjoint⟩ := List.isChain_append.1 hbetween
    obtain ⟨hne, hne', hr⟩ := hjoint last (by simp) piece (by simp)
    have hlast := getElem?_flatten_getLast (piece :: after) hne hlength
    have hhead := getElem?_flatten_head (earlier ++ [last]) after hne'
    rw [hflatten, hx, List.getLast?_eq_some_getLast hne, Option.some.injEq] at hlast
    rw [hflatten, hlength, hy, List.head?_eq_some_head hne', Option.some.injEq] at hhead
    rwa [hlast, hhead]
  · intro hr
    have hlast : (xs.take (i + 1)).getLast? = some x := by
      rw [List.take_add_one, hx, Option.toList_some, List.getLast?_concat]
    have hhead : (xs.drop (i + 1)).head? = some y := by rw [List.head?_drop, hy]
    have hsplit := List.splitBy_append (forall_meet hlast hhead hr)
    rw [List.take_append_drop] at hsplit
    cases hrest : (xs.drop (i + 1)).splitBy r with
    | nil =>
      rw [List.splitBy_eq_nil.1 hrest] at hhead
      cases hhead
    | cons piece after =>
      rw [hrest] at hsplit
      refine ⟨_, piece, after, hsplit, ?_⟩
      obtain ⟨hi, -⟩ := List.getElem?_eq_some_iff.1 hy
      rw [List.flatten_splitBy, List.length_take, Nat.min_eq_left (by omega)]

theorem flatMap_splitBy_of_isChain {parts : List (List α)} (hnil : [] ∉ parts)
    (hbetween : parts.IsChain fun a b => ∃ ha hb, r (a.getLast ha) (b.head hb) = false) :
    parts.flatMap (List.splitBy r) = parts.flatten.splitBy r := by
  induction parts with
  | nil => rfl
  | cons part parts ih =>
    rw [List.mem_cons, not_or] at hnil
    rw [List.flatMap_cons, ih hnil.2 hbetween.tail, List.flatten_cons, List.splitBy_append]
    intro a ha b hb
    cases parts with
    | nil => cases hb
    | cons next parts =>
      obtain ⟨⟨hne, hne', hr⟩, -⟩ := List.isChain_cons_cons.1 hbetween
      have hhead : (next :: parts).flatten.head? = some (next.head hne') := by
        rw [List.flatten_cons, List.head?_append_of_ne_nil _ hne', List.head?_eq_some_head hne']
      exact forall_meet (p := fun a b => r a b = false) (List.getLast?_eq_some_getLast hne) hhead hr
        a ha b hb

/-- The pieces of a coarser relation fall into those of a finer one. -/
theorem flatMap_splitBy {coarse : α → α → Bool} (h : ∀ x y, r x y = true → coarse x y = true)
    (xs : List α) : (xs.splitBy coarse).flatMap (List.splitBy r) = xs.splitBy r := by
  have hbetween := (List.isChain_getLast_head_splitBy coarse xs).imp
    fun a b ⟨hne, hne', hcoarse⟩ => (⟨hne, hne', Bool.eq_false_iff.2 fun hr =>
      Bool.eq_false_iff.1 hcoarse (h _ _ hr)⟩ : ∃ ha hb, r (a.getLast ha) (b.head hb) = false)
  rw [flatMap_splitBy_of_isChain (List.nil_notMem_splitBy coarse xs) hbetween, List.flatten_splitBy]

end Tabular
