import Tabular.Proofs.Join.Rows

namespace Tabular

theorem isEqv_sameKey (vs ws : List Value) : List.isEqv vs ws Value.sameKey = true ↔
    ∃ key, vs.mapM Key.of? = some key ∧ ws.mapM Key.of? = some key := by
  induction vs generalizing ws with
  | nil =>
    cases ws with
    | nil => simp [List.isEqv]
    | cons w ws => simp [List.isEqv, List.mapM_cons, Option.bind_eq_some_iff]
  | cons v vs ih =>
    cases ws with
    | nil => simp [List.isEqv, List.mapM_cons, Option.bind_eq_some_iff]
    | cons w ws =>
      rw [List.isEqv, Bool.and_eq_true, Key.sameKey_iff, ih]
      simp only [List.mapM_cons, Option.bind_eq_bind, Option.bind_eq_some_iff]
      constructor
      · rintro ⟨⟨key, hv, hw⟩, keys, hvs, hws⟩
        exact ⟨key :: keys, ⟨key, hv, keys, hvs, rfl⟩, ⟨key, hw, keys, hws, rfl⟩⟩
      · rintro ⟨all, ⟨key, hv, keys, hvs, hall⟩, ⟨key', hw, keys', hws, hall'⟩⟩
        cases hall
        cases hall'
        exact ⟨⟨key, hv, hw⟩, keys, hvs, hws⟩

namespace Join

theorem keyOf?_eq_mapM {positions : List Nat} {row : Row} (h : ∀ i ∈ positions, i < row.length) :
    keyOf? positions row = (Row.pick row positions).mapM Key.of? := by
  induction positions with
  | nil => rfl
  | cons i positions ih =>
    obtain ⟨v, hi⟩ : ∃ v, row[i]? = some v :=
      ⟨_, List.getElem?_eq_getElem (h i List.mem_cons_self)⟩
    have hpick : Row.pick row (i :: positions) = v :: Row.pick row positions := by
      rw [Row.pick, List.filterMap_cons, hi]
      rfl
    have htail := ih fun k hk => h k (List.mem_cons_of_mem i hk)
    rw [keyOf?] at *
    rw [hpick, List.mapM_cons, List.mapM_cons, htail, hi]
    rfl

variable {leftColumns rightColumns : List String} {j : Join}

/-- The rows of a join on named columns, where two rows agree if all their key values are the same.
-/
def rowsByName (type : JoinType) (leftSchema rightSchema : Schema)
    (leftColumns rightColumns : List String) (left right : List Row) : List Row :=
  nestedLoop type
    (fun l r => List.isEqv (leftSchema.cells leftColumns l) (rightSchema.cells rightColumns r)
      Value.sameKey)
    (fun l r => leftSchema.cells leftColumns l ++ leftSchema.otherCells leftColumns l ++
      rightSchema.otherCells rightColumns r)
    (fun l => leftSchema.cells leftColumns l ++ leftSchema.otherCells leftColumns l ++
      rightSchema.otherNulls rightColumns)
    (fun r => rightSchema.cells rightColumns r ++ leftSchema.otherNulls leftColumns ++
      rightSchema.otherCells rightColumns r)
    left right

theorem Built.agree_eq (h : Built leftColumns rightColumns j) {l r : Row}
    (hl : l.length = j.left.size) (hr : r.length = j.right.size) :
    j.agree l r = List.isEqv (j.left.cells leftColumns l) (j.right.cells rightColumns r)
      Value.sameKey := by
  have hleft : keyOf? j.leftKeys l = (Row.pick l j.leftKeys).mapM Key.of? :=
    keyOf?_eq_mapM fun i hi => hl ▸ h.leftKeys.lt_size i hi
  have hright : keyOf? j.rightKeys r = (Row.pick r j.rightKeys).mapM Key.of? :=
    keyOf?_eq_mapM fun i hi => hr ▸ h.rightKeys.lt_size i hi
  rw [h.leftKeys.pick_eq] at hleft
  rw [h.rightKeys.pick_eq] at hright
  rw [Bool.eq_iff_iff, isEqv_sameKey, ← hleft, ← hright, Join.agree]
  cases keyOf? j.leftKeys l with
  | none => simp
  | some key => cases keyOf? j.rightKeys r <;> simp

theorem Built.joined_eq_rowsByName (h : Built leftColumns rightColumns j) {left right : List Row}
    (hleft : ∀ l ∈ left, l.length = j.left.size) (hright : ∀ r ∈ right, r.length = j.right.size) :
    j.joined left right = rowsByName j.type j.left j.right leftColumns rightColumns left right := by
  rw [joined_eq_nestedLoop, rowsByName]
  apply nestedLoop_congr
  · intro l hl r hr
    exact h.agree_eq (hleft l hl) (hright r hr)
  · intro l hl r hr
    rw [leftOf, h.leftRest, h.rightRest, h.leftKeys.pick_eq,
      h.leftKeys.pick_positionsExcept (hleft l hl), h.rightKeys.pick_positionsExcept (hright r hr)]
  · intro l hl
    rw [leftOf, h.leftRest, h.rightRest, h.leftKeys.pick_eq,
      h.leftKeys.pick_positionsExcept (hleft l hl), h.rightKeys.nullsAt_positionsExcept]
  · intro r hr
    rw [rightOf, h.leftRest, h.rightRest, h.rightKeys.pick_eq,
      h.rightKeys.pick_positionsExcept (hright r hr), h.leftKeys.nullsAt_positionsExcept]

theorem forM_checkWidth (side : Side) (schema : Schema) (rows : List Row) :
    (rows.forM (checkWidth side schema) = .ok () ∧ ∀ row ∈ rows, row.length = schema.size) ∨
    ((∃ fault, rows.forM (checkWidth side schema) = .error (.schema fault)) ∧
      ∃ row ∈ rows, row.length ≠ schema.size) := by
  induction rows with
  | nil => exact .inl ⟨rfl, fun _ h => absurd h List.not_mem_nil⟩
  | cons row rows ih =>
    have hstep : (row :: rows).forM (checkWidth side schema) =
        checkWidth side schema row >>= fun _ => rows.forM (checkWidth side schema) := rfl
    rw [hstep, checkWidth]
    by_cases hrow : row.length = schema.size
    · rw [if_pos hrow]
      rcases ih with ⟨hok, hall⟩ | ⟨herror, other, hother, hne⟩
      · exact .inl ⟨hok, List.forall_mem_cons.2 ⟨hrow, hall⟩⟩
      · exact .inr ⟨herror, other, List.mem_cons_of_mem row hother, hne⟩
    · rw [if_neg hrow]
      exact .inr ⟨⟨_, rfl⟩, row, List.mem_cons_self, hrow⟩

theorem execute_cases (j : Join) (left right : List Row) :
    (j.execute left right = .ok (j.joined left right) ∧ (∀ l ∈ left, l.length = j.left.size) ∧
      ∀ r ∈ right, r.length = j.right.size) ∨
    ((∃ fault, j.execute left right = .error (.schema fault)) ∧
      ((∃ l ∈ left, l.length ≠ j.left.size) ∨ ∃ r ∈ right, r.length ≠ j.right.size)) := by
  rw [execute]
  rcases forM_checkWidth .right j.right right with ⟨hok, hright⟩ | ⟨⟨fault, herror⟩, hwrong⟩
  · rw [hok]
    rcases forM_checkWidth .left j.left left with ⟨hok', hleft⟩ | ⟨⟨fault, herror⟩, hwrong⟩
    · rw [hok']
      exact .inl ⟨rfl, hleft, hright⟩
    · rw [herror]
      exact .inr ⟨⟨fault, rfl⟩, .inl hwrong⟩
  · rw [herror]
    exact .inr ⟨⟨fault, rfl⟩, .inr hwrong⟩

/-- A join fails, with a schema fault, exactly if some row has the wrong width, and otherwise gives
the rows of the nested loop over its named columns. -/
theorem execute_eq_rowsByName {type : JoinType} {leftSchema rightSchema : Schema}
    {leftColumns rightColumns : List String} {j : Join}
    (built : onColumns type leftSchema rightSchema leftColumns rightColumns = .ok j)
    (left right : List Row) :
    ((∃ fault, j.execute left right = .error (.schema fault)) ↔
      (∃ l ∈ left, l.length ≠ leftSchema.size) ∨ ∃ r ∈ right, r.length ≠ rightSchema.size) ∧
    ((∀ l ∈ left, l.length = leftSchema.size) → (∀ r ∈ right, r.length = rightSchema.size) →
      j.execute left right =
        .ok (rowsByName type leftSchema rightSchema leftColumns rightColumns left right)) ∧
    ∀ v w, v.sameKey w = true ↔ ∃ key, Key.of? v = some key ∧ Key.of? w = some key := by
  obtain ⟨rfl, rfl, rfl, h⟩ := built_of_onColumns built
  refine ⟨?_, ?_, Key.sameKey_iff⟩
  · rcases j.execute_cases left right with ⟨hok, hleft, hright⟩ | ⟨herror, hwrong⟩
    · constructor
      · rintro ⟨fault, hfault⟩
        cases hok.symm.trans hfault
      · rintro (⟨l, hl, hne⟩ | ⟨r, hr, hne⟩)
        · exact absurd (hleft l hl) hne
        · exact absurd (hright r hr) hne
    · exact ⟨fun _ => hwrong, fun _ => herror⟩
  · intro hleft hright
    rw [← h.joined_eq_rowsByName hleft hright]
    rcases j.execute_cases left right with ⟨hok, -⟩ | ⟨-, ⟨l, hl, hne⟩ | ⟨r, hr, hne⟩⟩
    · exact hok
    · exact absurd (hleft l hl) hne
    · exact absurd (hright r hr) hne

theorem execute_eq_rowsByName_of_fullOuter :
    let leftSchema : Schema := ⟨[⟨"name", .string⟩, ⟨"id", .integer⟩], by decide, by decide⟩
    let rightSchema : Schema := ⟨[⟨"key", .integer⟩, ⟨"tag", .string⟩], by decide, by decide⟩
    ∃ j, onColumns .fullOuter leftSchema rightSchema ["id"] ["key"] = .ok j ∧
      j.execute [[.string "a", .integer 7], [.string "b", .null .integer]]
        [[.integer 7, .string "x"], [.integer 8, .string "y"], [.integer 7, .string "z"]] =
      .ok [[.integer 7, .string "a", .string "x"], [.integer 7, .string "a", .string "z"],
        [.null .integer, .string "b", .null .string],
        [.integer 8, .null .string, .string "y"]] := by
  intro leftSchema rightSchema
  have built : onColumns .fullOuter leftSchema rightSchema ["id"] ["key"] =
      .ok ⟨.fullOuter, leftSchema, rightSchema, [1], [0], [0], [1],
        ⟨[⟨"id", .integer⟩, ⟨"name", .string⟩, ⟨"tag", .string⟩], by decide, by decide⟩⟩ := rfl
  refine ⟨_, built, ?_⟩
  rw [(execute_eq_rowsByName built _ _).2.1 (by decide) (by decide)]
  rfl

end Join

end Tabular
