import Tabular.Proofs.Join.Rows

namespace Tabular

theorem Schema.map_type_pick (s : Schema) (positions : List Nat) :
    (s.pick positions).map Field.type = positions.filterMap fun i => s.types[i]? := by
  simp only [Schema.pick, List.map_filterMap, s.types_getElem?]

theorem Schema.Names.length_pick {s : Schema} {columns : List String} {positions : List Nat}
    (h : s.Names columns positions) : (s.pick positions).length = columns.length :=
  h.forall₂_pick.length_eq.symm

namespace Join

theorem types_eq_of_mismatchedKeys {left right : List Field} (hlength : left.length = right.length)
    (h : mismatchedKeys left right = []) : left.map Field.type = right.map Field.type := by
  induction left generalizing right with
  | nil =>
    cases right with
    | nil => rfl
    | cons r right => cases hlength
  | cons l left ih =>
    cases right with
    | nil => cases hlength
    | cons r right =>
      rw [mismatchedKeys, List.zip_cons_cons, List.filterMap_cons] at h
      by_cases htype : l.type = r.type
      · simp only [htype, ↓reduceIte] at h
        rw [List.map_cons, List.map_cons, htype, ih (Nat.succ.inj hlength) h]
      · simp only [htype, ↓reduceIte] at h
        cases h

variable {leftColumns rightColumns : List String} {j : Join}

theorem Built.types_output (h : Built leftColumns rightColumns j) :
    j.output.types = (j.leftKeys.filterMap fun i => j.left.types[i]?) ++
      (j.leftRest.filterMap fun i => j.left.types[i]?) ++
      j.rightRest.filterMap fun i => j.right.types[i]? := by
  rw [Schema.types, h.output, List.map_append, List.map_append, Schema.map_type_pick,
    Schema.map_type_pick, Schema.map_type_pick]

theorem Built.types_keys (h : Built leftColumns rightColumns j) :
    (j.leftKeys.filterMap fun i => j.left.types[i]?) =
      j.rightKeys.filterMap fun i => j.right.types[i]? := by
  have hlength : (j.left.pick j.leftKeys).length = (j.right.pick j.rightKeys).length := by
    rw [h.leftKeys.length_pick, h.rightKeys.length_pick, h.lengths]
  rw [← Schema.map_type_pick, ← Schema.map_type_pick,
    types_eq_of_mismatchedKeys hlength h.typesAgree]

theorem Built.fits_both (h : Built leftColumns rightColumns j) {l r : Row}
    (hl : l.Fits j.left.types) (hr : r.Fits j.right.types) :
    (j.leftOf l (some r)).Fits j.output.types := by
  rw [h.types_output, leftOf]
  exact ((hl.pick _).append (hl.pick _)).append (hr.pick _)

theorem Built.fits_left (h : Built leftColumns rightColumns j) {l : Row}
    (hl : l.Fits j.left.types) : (j.leftOf l none).Fits j.output.types := by
  rw [h.types_output, leftOf]
  exact ((hl.pick _).append (hl.pick _)).append (j.right.fits_nullsAt _)

theorem Built.fits_right (h : Built leftColumns rightColumns j) {r : Row}
    (hr : r.Fits j.right.types) : (j.rightOf r).Fits j.output.types := by
  rw [h.types_output, h.types_keys, rightOf]
  exact ((hr.pick _).append (j.left.fits_nullsAt _)).append (hr.pick _)

theorem mem_nestedLoop {type : JoinType} {agree : Row → Row → Bool} {both : Row → Row → Row}
    {onlyLeft onlyRight : Row → Row} {left right : List Row} {row : Row}
    (h : row ∈ nestedLoop type agree both onlyLeft onlyRight left right) :
    (∃ l ∈ left, ∃ r ∈ right, row = both l r) ∨ (∃ l ∈ left, row = onlyLeft l) ∨
      ∃ r ∈ right, row = onlyRight r := by
  rw [nestedLoop] at h
  rcases List.mem_append.1 h with h | h
  · obtain ⟨l, hl, h⟩ := List.mem_flatMap.1 h
    split at h
    · obtain ⟨r, hr, rfl⟩ := List.mem_map.1 h
      exact .inl ⟨l, hl, r, List.mem_of_mem_filter hr, rfl⟩
    · split at h
      · exact .inr (.inl ⟨l, hl, List.mem_singleton.1 h⟩)
      · exact absurd h List.not_mem_nil
  · split at h
    · obtain ⟨r, hr, rfl⟩ := List.mem_map.1 h
      exact .inr (.inr ⟨r, List.mem_of_mem_filter hr, rfl⟩)
    · exact absurd h List.not_mem_nil

theorem Built.fits_joined (h : Built leftColumns rightColumns j) {left right : List Row}
    (hleft : ∀ l ∈ left, l.Fits j.left.types) (hright : ∀ r ∈ right, r.Fits j.right.types) :
    ∀ row ∈ j.joined left right, row.Fits j.output.types := by
  intro row hrow
  rw [joined_eq_nestedLoop] at hrow
  rcases mem_nestedLoop hrow with ⟨l, hl, r, hr, rfl⟩ | ⟨l, hl, rfl⟩ | ⟨r, hr, rfl⟩
  · exact h.fits_both (hleft l hl) (hright r hr)
  · exact h.fits_left (hleft l hl)
  · exact h.fits_right (hright r hr)

theorem Built.valid_datasets (h : Built leftColumns rightColumns j) {left right out : Dataset}
    (hleft : left.Valid) (hright : right.Valid) (hout : j.datasets left right = .ok out) :
    out.Valid := by
  simp only [datasets, guard_eq_ok] at hout
  obtain ⟨hl, hr, hout⟩ := hout
  rw [Dataset.Valid] at hleft hright
  rw [← Decidable.not_not.1 hl] at hleft
  rw [← Decidable.not_not.1 hr] at hright
  obtain ⟨rows, hrows, hout⟩ := bind_eq_ok.1 hout
  cases hout
  rw [execute, bind_eq_ok] at hrows
  obtain ⟨_, -, hrows⟩ := hrows
  obtain ⟨_, -, hrows⟩ := bind_eq_ok.1 hrows
  cases hrows
  exact h.fits_joined hleft hright

end Join

end Tabular
