import Tabular.Join.Rows
import Tabular.Proofs.Join.Cells
import Tabular.Proofs.Value.Key

namespace Tabular.Join

theorem any_congr_mem {α : Type} {p q : α → Bool} {xs : List α} (h : ∀ x ∈ xs, p x = q x) :
    xs.any p = xs.any q := by
  induction xs with
  | nil => rfl
  | cons x xs ih =>
    rw [List.any_cons, List.any_cons, h x List.mem_cons_self,
      ih fun y hy => h y (List.mem_cons_of_mem x hy)]

/-- The rows of a join: `agree` compares two rows, and the other functions make the row of both, of
a left and of a right one. -/
def nestedLoop (type : JoinType) (agree : Row → Row → Bool) (both : Row → Row → Row)
    (onlyLeft onlyRight : Row → Row) (left right : List Row) : List Row :=
  (left.flatMap fun l =>
    if right.any (agree l) then (right.filter (agree l)).map (both l)
    else if type = .leftOuter ∨ type = .fullOuter then [onlyLeft l] else []) ++
  if type = .rightOuter ∨ type = .fullOuter then
    (right.filter fun r => !left.any fun l => agree l r).map onlyRight
  else []

theorem nestedLoop_congr {type : JoinType} {agree agree' : Row → Row → Bool}
    {both both' : Row → Row → Row} {onlyLeft onlyLeft' onlyRight onlyRight' : Row → Row}
    {left right : List Row} (hagree : ∀ l ∈ left, ∀ r ∈ right, agree l r = agree' l r)
    (hboth : ∀ l ∈ left, ∀ r ∈ right, both l r = both' l r)
    (hleft : ∀ l ∈ left, onlyLeft l = onlyLeft' l)
    (hright : ∀ r ∈ right, onlyRight r = onlyRight' r) :
    nestedLoop type agree both onlyLeft onlyRight left right =
      nestedLoop type agree' both' onlyLeft' onlyRight' left right := by
  have hmatched : ∀ l ∈ left,
      (if right.any (agree l) then (right.filter (agree l)).map (both l)
        else if type = .leftOuter ∨ type = .fullOuter then [onlyLeft l] else []) =
      if right.any (agree' l) then (right.filter (agree' l)).map (both' l)
        else if type = .leftOuter ∨ type = .fullOuter then [onlyLeft' l] else [] := by
    intro l hl
    have hfilter : right.filter (agree l) = right.filter (agree' l) :=
      List.filter_congr (hagree l hl)
    have hmap : (right.filter (agree' l)).map (both l) = (right.filter (agree' l)).map (both' l) :=
      List.map_congr_left fun r hr => hboth l hl r (List.mem_of_mem_filter hr)
    have hany : right.any (agree l) = right.any (agree' l) :=
      any_congr_mem (hagree l hl)
    rw [hany, hfilter, hmap, hleft l hl]
  have hunmatched : (right.filter fun r => !left.any fun l => agree l r).map onlyRight =
      (right.filter fun r => !left.any fun l => agree' l r).map onlyRight' := by
    have hfilter : (right.filter fun r => !left.any fun l => agree l r) =
        right.filter fun r => !left.any fun l => agree' l r := by
      apply List.filter_congr
      intro r hr
      rw [any_congr_mem fun l hl => hagree l hl r hr]
    rw [hfilter]
    exact List.map_congr_left fun r hr => hright r (List.mem_of_mem_filter hr)
  rw [nestedLoop, nestedLoop, hunmatched, List.flatMap_congr hmatched]

/-- The keys of a left and a right row are complete and equal. -/
def agree (j : Join) (l r : Row) : Bool :=
  match keyOf? j.leftKeys l, keyOf? j.rightKeys r with
  | some key, some key' => decide (key' = key)
  | _, _ => false

section Index

variable {positions : List Nat} {index : Index}

theorem Index.getD_add (row : Row × Nat) (key : List Key) :
    ((Index.add positions index row).getD key #[]).toList = (index.getD key #[]).toList ++
      if keyOf? positions row.1 = some key then [row] else [] := by
  rw [Index.add]
  cases hkey : keyOf? positions row.1 with
  | none => simp
  | some found =>
    simp only [Std.HashMap.getD_insert, beq_iff_eq, Option.some.injEq]
    by_cases h : found = key
    · rw [if_pos h, if_pos h, h, Array.toList_push]
    · rw [if_neg h, if_neg h, List.append_nil]

theorem Index.getD_foldl (rows : List (Row × Nat)) (key : List Key) :
    ((rows.foldl (Index.add positions) index).getD key #[]).toList = (index.getD key #[]).toList ++
      rows.filter fun p => decide (keyOf? positions p.1 = some key) := by
  induction rows generalizing index with
  | nil => rw [List.foldl_nil, List.filter_nil, List.append_nil]
  | cons row rows ih =>
    rw [List.foldl_cons, ih, Index.getD_add, List.append_assoc, List.filter_cons]
    by_cases h : keyOf? positions row.1 = some key
    · rw [if_pos h, if_pos (decide_eq_true h), List.singleton_append]
    · rw [if_neg h, if_neg (by simpa using h), List.nil_append]

end Index

variable (j : Join) (left right : List Row)

theorem lookup_ofRows (l : Row) :
    Index.lookup j.leftKeys (Index.ofRows j.rightKeys right) l =
      right.zipIdx.filter fun p => j.agree l p.1 := by
  rw [Index.lookup]
  cases hkey : keyOf? j.leftKeys l with
  | none =>
    have hnone : ∀ p ∈ right.zipIdx, ¬j.agree l p.1 = true := by
      intro p _
      simp [agree, hkey]
    exact (List.filter_eq_nil_iff.2 hnone).symm
  | some key =>
    simp only
    rw [Index.ofRows, Index.getD_foldl, Std.HashMap.getD_empty, List.nil_append]
    apply List.filter_congr
    intro p _
    rw [agree, hkey]
    cases keyOf? j.rightKeys p.1 <;> simp

section Flags

theorem mark_getElem? (flags : Array Bool) (found : List (Row × Nat)) (i : Nat) :
    (mark flags found)[i]? = flags[i]?.map (· || found.any fun p => p.2 == i) := by
  induction found generalizing flags with
  | nil => simp [mark]
  | cons p found ih =>
    have hstep : mark flags (p :: found) = mark (flags.setIfInBounds p.2 true) found := rfl
    rw [hstep, ih, Array.getElem?_setIfInBounds, List.any_cons]
    by_cases hi : p.2 = i
    · subst hi
      by_cases hbound : p.2 < flags.size
      · simp [hbound]
      · simp [hbound]
    · have hne : (p.2 == i) = false := beq_false_of_ne hi
      rw [if_neg hi, hne]
      simp only [Bool.false_or]

theorem markAll_getElem? (flags : Array Bool) (found : List (Row × List (Row × Nat))) (i : Nat) :
    (found.foldl (fun flags p => mark flags p.2) flags)[i]? =
      flags[i]?.map (· || found.any fun p => p.2.any fun q => q.2 == i) := by
  induction found generalizing flags with
  | nil => simp
  | cons p found ih =>
    rw [List.foldl_cons, ih, mark_getElem?, Option.map_map, List.any_cons]
    simp only [Function.comp_def, Bool.or_assoc]

theorem any_position {rows : List Row} {i : Nat} {r : Row} (hi : rows[i]? = some r)
    (p : Row → Bool) : ((rows.zipIdx.filter fun q => p q.1).any fun q => q.2 == i) = p r := by
  rw [List.any_filter, Bool.eq_iff_iff, List.any_eq_true]
  constructor
  · rintro ⟨⟨r', k⟩, hmem, hq⟩
    obtain ⟨hp, hk⟩ := Bool.and_eq_true_iff.1 hq
    cases beq_iff_eq.1 hk
    rw [List.mk_mem_zipIdx_iff_getElem?, hi] at hmem
    cases hmem
    exact hp
  · intro hp
    refine ⟨(r, i), List.mk_mem_zipIdx_iff_getElem?.2 hi, ?_⟩
    rw [hp, Bool.true_and, beq_self_eq_true]

/-- The flag of a right row tells whether some left row agrees with it. -/
theorem matched_toList :
    ((left.map fun row => (row, right.zipIdx.filter fun p => j.agree row p.1)).foldl
      (fun flags p => mark flags p.2) (Array.replicate right.length false)).toList =
      right.map fun r => left.any fun l => j.agree l r := by
  -- flags are set by position, so they are compared position by position
  apply List.ext_getElem?
  intro i
  rw [Array.getElem?_toList, markAll_getElem?, List.getElem?_map, Array.getElem?_replicate]
  cases hi : right[i]? with
  | none => rw [if_neg (Nat.not_lt.2 (List.getElem?_eq_none_iff.1 hi))]; rfl
  | some r =>
    rw [if_pos (List.getElem?_eq_some_iff.1 hi).1, Option.map_some, Option.map_some, Bool.false_or,
      List.any_map]
    exact congrArg some (any_congr_mem fun l _ => any_position hi (j.agree l))

end Flags

theorem rowsOf_filter (l : Row) :
    j.rowsOf l (right.zipIdx.filter fun p => j.agree l p.1) =
      if right.any (j.agree l) then (right.filter (j.agree l)).map fun r => j.leftOf l (some r)
      else if j.type = .leftOuter ∨ j.type = .fullOuter then [j.leftOf l none] else [] := by
  have hfilter : (right.zipIdx.filter fun p => j.agree l p.1).map Prod.fst =
      right.filter (j.agree l) := by
    have hmap := List.filter_map (f := Prod.fst) (p := j.agree l) (l := right.zipIdx)
    rw [List.zipIdx_map_fst] at hmap
    exact hmap.symm
  cases hfound : right.zipIdx.filter fun p => j.agree l p.1 with
  | nil =>
    rw [hfound, List.map_nil] at hfilter
    have hany : right.any (j.agree l) = false :=
      List.any_eq_false.2 (List.filter_eq_nil_iff.1 hfilter.symm)
    rw [hany]
    cases htype : j.type <;> simp [rowsOf, JoinType.keepsLeft, htype]
  | cons p found =>
    rw [hfound, List.map_cons] at hfilter
    have hmem : p.1 ∈ right.filter (j.agree l) := hfilter ▸ List.mem_cons_self
    rw [if_pos (List.any_eq_true.2 ⟨p.1, List.mem_filter.1 hmem⟩), ← hfilter]
    simp [rowsOf]

/-- The join with an index gives the rows of the nested loop. -/
theorem joined_eq_nestedLoop :
    j.joined left right = nestedLoop j.type j.agree (fun l r => j.leftOf l (some r))
      (fun l => j.leftOf l none) j.rightOf left right := by
  have hunmatched : ((right.zip (right.map fun r => left.any fun l => j.agree l r)).filter
      fun p => !p.2).map (fun p => j.rightOf p.1) =
      (right.filter fun r => !left.any fun l => j.agree l r).map j.rightOf := by
    have hzip := List.zip_map' (f := id) (g := fun r => left.any fun l => j.agree l r) (l := right)
    rw [List.map_id] at hzip
    rw [hzip, List.filter_map, List.map_map]
    rfl
  have hkeeps : (j.type.keepsRight = true) = (j.type = .rightOuter ∨ j.type = .fullOuter) := by
    cases j.type <;> simp [JoinType.keepsRight]
  simp only [joined, lookup_ofRows, matched_toList, hunmatched, nestedLoop, List.flatMap_map,
    rowsOf_filter, hkeeps]

end Tabular.Join
