import Tabular.Proofs.Join.Cells

namespace Tabular

theorem firstRepeated?_eq_none_iff {seen names : List String} :
    firstRepeated? seen names = none ↔ names.Nodup ∧ ∀ name ∈ names, name ∉ seen := by
  induction names generalizing seen with
  | nil => simp [firstRepeated?]
  | cons name rest ih =>
    rw [firstRepeated?, List.nodup_cons, List.forall_mem_cons]
    by_cases hseen : name ∈ seen
    · simp [hseen]
    · have hcontains : seen.contains name = false := by simpa using hseen
      rw [hcontains, if_neg Bool.false_ne_true, ih]
      constructor
      · rintro ⟨distinct, fresh⟩
        have hnew : name ∉ rest := fun hmem => fresh name hmem List.mem_cons_self
        exact ⟨⟨hnew, distinct⟩, hseen, fun n hn h => fresh n hn (List.mem_cons_of_mem _ h)⟩
      · rintro ⟨⟨hnew, distinct⟩, -, fresh⟩
        refine ⟨distinct, fun n hn h => ?_⟩
        rcases List.mem_cons.1 h with rfl | h
        · exact hnew hn
        · exact fresh n hn h

namespace Schema

variable {s : Schema} {columns : List String} {positions : List Nat}

theorem mem_names_iff {name : String} : name ∈ s.names ↔ ∃ i, s.indexOf? name = some i := by
  simp only [indexOf?_eq_some, List.mem_iff_getElem?]

theorem eq_of_name {f g : Field} (hf : f ∈ s.fields) (hg : g ∈ s.fields) (h : f.name = g.name) :
    f = g :=
  List.inj_on_of_nodup_map s.distinct hf hg h

theorem exists_names (h : ∀ name ∈ columns, name ∈ s.names) :
    ∃ positions, s.Names columns positions := by
  induction columns with
  | nil => exact ⟨[], .nil⟩
  | cons name columns ih =>
    obtain ⟨hname, hrest⟩ := List.forall_mem_cons.1 h
    obtain ⟨i, hi⟩ := mem_names_iff.1 hname
    obtain ⟨positions, hpositions⟩ := ih hrest
    exact ⟨i :: positions, .cons hi hpositions⟩

namespace Names

theorem nodup (h : s.Names columns positions) (hcolumns : columns.Nodup) : positions.Nodup := by
  induction h with
  | nil => exact List.nodup_nil
  | @cons name i columns positions hname htail ih =>
    obtain ⟨hnew, hcolumns⟩ := List.nodup_cons.1 hcolumns
    have hrest : s.Names columns positions := htail
    rw [hrest.mem_iff (indexOf?_eq_some.1 hname)] at hnew
    exact List.nodup_cons.2 ⟨hnew, ih hcolumns⟩

theorem perm_range (h : s.Names columns positions) (hcolumns : columns.Nodup) :
    (positions ++ s.positionsExcept positions).Perm (List.range s.size) := by
  have hnamed : positions.Perm ((List.range s.size).filter fun i => positions.contains i) := by
    rw [List.perm_ext_iff_of_nodup (h.nodup hcolumns) (List.nodup_range.filter _)]
    intro i
    rw [List.mem_filter, List.mem_range, List.contains_iff_mem]
    exact ⟨fun hi => ⟨h.lt_size i hi, hi⟩, And.right⟩
  exact (hnamed.append_right _).trans (List.filter_append_perm _ _)

theorem pick_others (h : s.Names columns positions) :
    s.pick (s.positionsExcept positions) = s.fields.filter (·.name ∉ columns) := by
  have hothers := h.filterMap_positionsExcept Field.name id rfl
  simp only [Option.map_id_fun, id_eq] at hothers
  rw [pick, ← hothers, ← List.filterMap_eq_filter]
  apply List.filterMap_congr
  intro f _
  by_cases hf : f.name ∈ columns
  · simp [Option.guard, hf]
  · simp [Option.guard, hf]

theorem perm_fields (h : s.Names columns positions) (hcolumns : columns.Nodup) :
    (s.pick positions ++ s.pick (s.positionsExcept positions)).Perm s.fields := by
  have hperm := (h.perm_range hcolumns).filterMap fun i => s.fields[i]?
  have hall := filterMap_eq_range some s.fields
  rw [List.filterMap_some] at hall
  simp only [Option.bind_fun_some] at hall
  rw [List.filterMap_append, size, ← hall] at hperm
  exact hperm

end Names

end Schema

namespace Join

/-- What a join needs: key columns in pairs of one type, each there and named once, and no other
right column under a left name. -/
structure Joinable (left right : Schema) (leftColumns rightColumns : List String) : Prop where
  left_ne_nil : leftColumns ≠ []
  right_ne_nil : rightColumns ≠ []
  lengths : leftColumns.length = rightColumns.length
  leftNamed : ∀ name ∈ leftColumns, name ∈ left.names
  rightNamed : ∀ name ∈ rightColumns, name ∈ right.names
  leftDistinct : leftColumns.Nodup
  rightDistinct : rightColumns.Nodup
  typesAgree : ∀ pair ∈ leftColumns.zip rightColumns, ∀ f ∈ left.fields, ∀ g ∈ right.fields,
    f.name = pair.1 → g.name = pair.2 → f.type = g.type
  apart : ∀ name ∈ right.names, name ∉ rightColumns → name ∉ left.names

/-- The columns of a join: the keys under their left names, then the other left and the other right
columns, all in order. -/
structure Arranged (leftColumns rightColumns : List String) (j : Join) : Prop where
  leftKeys : j.left.Names leftColumns j.leftKeys
  rightKeys : j.right.Names rightColumns j.rightKeys
  leftPositions : (j.leftKeys ++ j.leftRest).Perm (List.range j.left.size)
  rightPositions : (j.rightKeys ++ j.rightRest).Perm (List.range j.right.size)
  columns : ∃ keys,
    List.Forall₂ (fun name f => f ∈ j.left.fields ∧ f.name = name) leftColumns keys ∧
    j.output.fields = keys ++ j.left.fields.filter (·.name ∉ leftColumns) ++
      j.right.fields.filter (·.name ∉ rightColumns)
  named : ∀ f ∈ j.output.fields, f.name ≠ ""
  distinct : (j.output.fields.map Field.name).Nodup

variable {type : JoinType} {left right : Schema} {leftColumns rightColumns : List String}
  {leftKeys rightKeys : List Nat} {j : Join}

section Checks

theorem filter_isNone_eq_nil_iff {s : Schema} {columns : List String} :
    columns.filter (fun name => (s.indexOf? name).isNone) = [] ↔
      ∀ name ∈ columns, name ∈ s.names := by
  rw [List.filter_eq_nil_iff]
  apply forall₂_congr
  intro name _
  rw [Schema.mem_names_iff, ← Option.isSome_iff_exists, Option.isNone_iff_eq_none,
    Option.isSome_iff_ne_none]

theorem missingKeys_eq_nil_iff : missingKeys left right leftColumns rightColumns = [] ↔
    (∀ name ∈ leftColumns, name ∈ left.names) ∧ ∀ name ∈ rightColumns, name ∈ right.names := by
  rw [missingKeys, List.append_eq_nil_iff, filter_isNone_eq_nil_iff, filter_isNone_eq_nil_iff]

theorem mismatchedKeys_eq_nil_iff {left right : List Field} :
    mismatchedKeys left right = [] ↔ ∀ p ∈ left.zip right, p.1.type = p.2.type := by
  rw [mismatchedKeys, List.filterMap_eq_nil_iff]
  apply forall₂_congr
  intro p _
  by_cases htype : p.1.type = p.2.type
  · simp [htype]
  · simp [htype]

theorem collisions_eq_nil_iff {left right : List Field} :
    collisions left right = [] ↔ ∀ name ∈ right.map Field.name, name ∉ left.map Field.name := by
  rw [collisions, List.filter_eq_nil_iff]
  apply forall₂_congr
  intro name _
  simp

theorem mismatchedKeys_pick_iff (hleft : left.Names leftColumns leftKeys)
    (hright : right.Names rightColumns rightKeys) :
    mismatchedKeys (left.pick leftKeys) (right.pick rightKeys) = [] ↔
      ∀ pair ∈ leftColumns.zip rightColumns, ∀ f ∈ left.fields, ∀ g ∈ right.fields,
        f.name = pair.1 → g.name = pair.2 → f.type = g.type := by
  have hzip : leftColumns.zip rightColumns =
      ((left.pick leftKeys).zip (right.pick rightKeys)).map
        fun p => (p.1.name, p.2.name) := by
    rw [← hleft.names_pick, ← hright.names_pick, List.zip_map]
    rfl
  have hmem : ∀ p ∈ (left.pick leftKeys).zip (right.pick rightKeys),
      p.1 ∈ left.fields ∧ p.2 ∈ right.fields := by
    intro p hp
    obtain ⟨hl, hr⟩ := List.of_mem_zip hp
    obtain ⟨_, -, hl, -⟩ := exists_of_forall₂ hleft.forall₂_pick.flip hl
    obtain ⟨_, -, hr, -⟩ := exists_of_forall₂ hright.forall₂_pick.flip hr
    exact ⟨hl, hr⟩
  rw [mismatchedKeys_eq_nil_iff, hzip, List.forall_mem_map]
  apply forall₂_congr
  intro p hp
  obtain ⟨hl, hr⟩ := hmem p hp
  constructor
  · intro h f hf g hg hfname hgname
    rw [Schema.eq_of_name hf hl hfname, Schema.eq_of_name hg hr hgname, h]
  · exact fun h => h p.1 hl p.2 hr rfl rfl

theorem collisions_pick_iff (hleft : left.Names leftColumns leftKeys)
    (hright : right.Names rightColumns rightKeys) (hleftColumns : leftColumns.Nodup) :
    collisions (left.pick leftKeys ++ left.pick (left.positionsExcept leftKeys))
        (right.pick (right.positionsExcept rightKeys)) = [] ↔
      ∀ name ∈ right.names, name ∉ rightColumns → name ∉ left.names := by
  have hall : ∀ name, name ∈ List.map Field.name (left.pick leftKeys ++
      left.pick (left.positionsExcept leftKeys)) ↔ name ∈ left.names :=
    fun _ => ((hleft.perm_fields hleftColumns).map Field.name).mem_iff
  rw [collisions_eq_nil_iff, hright.pick_others]
  simp only [hall]
  constructor
  · intro h name hname hother
    obtain ⟨g, hg, rfl⟩ := List.mem_map.1 hname
    exact h _ (List.mem_map_of_mem (List.mem_filter.2 ⟨hg, decide_eq_true hother⟩))
  · intro h name hname
    obtain ⟨g, hg, rfl⟩ := List.mem_map.1 hname
    obtain ⟨hg, hother⟩ := List.mem_filter.1 hg
    exact h _ (List.mem_map_of_mem hg) (of_decide_eq_true hother)

end Checks

theorem exists_output (hleft : left.Names leftColumns leftKeys)
    (hright : right.Names rightColumns rightKeys) (hleftColumns : leftColumns.Nodup)
    (happart : ∀ name ∈ right.names, name ∉ rightColumns → name ∉ left.names) :
    ∃ output, Schema.ofFields (left.pick leftKeys ++ left.pick (left.positionsExcept leftKeys) ++
      right.pick (right.positionsExcept rightKeys)) = .ok output := by
  have hall := hleft.perm_fields hleftColumns
  have hcollisions := (collisions_pick_iff hleft hright hleftColumns).2 happart
  rw [collisions_eq_nil_iff] at hcollisions
  rw [hright.pick_others] at *
  apply Schema.exists_ofFields
  · intro f hf
    rcases List.mem_append.1 hf with hf | hf
    · exact left.named f (hall.mem_iff.1 hf)
    · exact right.named f (List.mem_of_mem_filter hf)
  · rw [List.map_append, List.nodup_append']
    refine ⟨(hall.map Field.name).nodup_iff.2 left.distinct, ?_, ?_⟩
    · exact right.distinct.sublist (List.filter_sublist.map Field.name)
    · exact fun name hname hname' => hcollisions name hname' hname

theorem joinable_of_onColumns (h : onColumns type left right leftColumns rightColumns = .ok j) :
    Joinable left right leftColumns rightColumns := by
  simp only [onColumns, guard_eq_ok] at h
  obtain ⟨hkeys, hlengths, hmissing, h⟩ := h
  obtain ⟨hleftKeys, hrightKeys⟩ : leftColumns ≠ [] ∧ rightColumns ≠ [] := by simpa using hkeys
  obtain ⟨hleftNamed, hrightNamed⟩ := missingKeys_eq_nil_iff.1 (by simpa using hmissing)
  split at h
  · cases h
  · next hrepeated =>
    obtain ⟨hleftRepeated, hrightRepeated⟩ := Option.or_eq_none_iff.1 hrepeated
    have hleftDistinct := (firstRepeated?_eq_none_iff.1 hleftRepeated).1
    have hrightDistinct := (firstRepeated?_eq_none_iff.1 hrightRepeated).1
    simp only [bind_eq_ok, guard_eq_ok] at h
    obtain ⟨leftKeys, hleft, rightKeys, hright, hagree, hcollisions, -⟩ := h
    rw [Schema.mapM_requireIndex] at hleft hright
    exact {
      left_ne_nil := hleftKeys
      right_ne_nil := hrightKeys
      lengths := Decidable.not_not.1 hlengths
      leftNamed := hleftNamed
      rightNamed := hrightNamed
      leftDistinct := hleftDistinct
      rightDistinct := hrightDistinct
      typesAgree := (mismatchedKeys_pick_iff hleft hright).1 (by simpa using hagree)
      apart := (collisions_pick_iff hleft hright hleftDistinct).1 (by simpa using hcollisions) }

theorem Joinable.exists_onColumns (h : Joinable left right leftColumns rightColumns)
    (type : JoinType) : ∃ j, onColumns type left right leftColumns rightColumns = .ok j := by
  obtain ⟨leftKeys, hleft⟩ := Schema.exists_names h.leftNamed
  obtain ⟨rightKeys, hright⟩ := Schema.exists_names h.rightNamed
  obtain ⟨output, houtput⟩ := exists_output hleft hright h.leftDistinct h.apart
  have hmissing := missingKeys_eq_nil_iff.2 ⟨h.leftNamed, h.rightNamed⟩
  have hrepeated : (firstRepeated? [] leftColumns).or (firstRepeated? [] rightColumns) = none := by
    rw [Option.or_eq_none_iff, firstRepeated?_eq_none_iff, firstRepeated?_eq_none_iff]
    exact ⟨⟨h.leftDistinct, fun _ _ => List.not_mem_nil⟩, h.rightDistinct,
      fun _ _ => List.not_mem_nil⟩
  have hagree := (mismatchedKeys_pick_iff hleft hright).2 h.typesAgree
  have hcollisions := (collisions_pick_iff hleft hright h.leftDistinct).2 h.apart
  refine ⟨⟨type, left, right, leftKeys, rightKeys, left.positionsExcept leftKeys,
    right.positionsExcept rightKeys, output⟩, ?_⟩
  simp only [onColumns, guard_eq_ok]
  refine ⟨by simp [h.left_ne_nil, h.right_ne_nil], by simp [h.lengths], by simp [hmissing], ?_⟩
  rw [hrepeated]
  simp only [bind_eq_ok, guard_eq_ok]
  exact ⟨leftKeys, Schema.mapM_requireIndex.2 hleft, rightKeys, Schema.mapM_requireIndex.2 hright,
    by simp [hagree], by simp [hcollisions], output, houtput, rfl⟩

/-- Lookups of columns and the check of the joined schema come too late to fail. -/
theorem exists_fault (e : Error)
    (h : onColumns type left right leftColumns rightColumns = .error e) :
    ∃ fault, e = .join fault := by
  simp only [onColumns, guard_eq_error] at h
  rcases h with ⟨-, rfl⟩ | ⟨-, ⟨-, rfl⟩ | ⟨-, ⟨-, rfl⟩ | ⟨hmissing, h⟩⟩⟩
  · exact ⟨_, rfl⟩
  · exact ⟨_, rfl⟩
  · exact ⟨_, rfl⟩
  obtain ⟨hleftNamed, hrightNamed⟩ := missingKeys_eq_nil_iff.1 (by simpa using hmissing)
  obtain ⟨leftKeys, hleft⟩ := Schema.exists_names hleftNamed
  obtain ⟨rightKeys, hright⟩ := Schema.exists_names hrightNamed
  rw [Schema.mapM_requireIndex.2 hleft, Schema.mapM_requireIndex.2 hright] at h
  split at h
  · cases h
    exact ⟨_, rfl⟩
  · next hrepeated =>
    obtain ⟨hleftRepeated, -⟩ := Option.or_eq_none_iff.1 hrepeated
    have hleftDistinct := (firstRepeated?_eq_none_iff.1 hleftRepeated).1
    simp only [bind_eq_error, guard_eq_error, reduceCtorEq, false_or, Except.ok.injEq,
      exists_eq_left'] at h
    rcases h with ⟨-, rfl⟩ | ⟨-, ⟨-, rfl⟩ | ⟨hcollisions, h⟩⟩
    · exact ⟨_, rfl⟩
    · exact ⟨_, rfl⟩
    · have happart :=
        (collisions_pick_iff hleft hright hleftDistinct).1 (by simpa using hcollisions)
      obtain ⟨output, houtput⟩ := exists_output hleft hright hleftDistinct happart
      rw [houtput] at h
      rcases h with h | ⟨_, -, h⟩
      · cases h
      · cases h

theorem arranged_of_onColumns (h : onColumns type left right leftColumns rightColumns = .ok j) :
    j.Arranged leftColumns rightColumns := by
  have hjoinable := joinable_of_onColumns h
  obtain ⟨-, rfl, rfl, hbuilt⟩ := built_of_onColumns h
  have hleftDistinct := hjoinable.leftDistinct
  have houtput := hbuilt.output
  rw [hbuilt.leftRest, hbuilt.rightRest, hbuilt.leftKeys.pick_others,
    hbuilt.rightKeys.pick_others] at houtput
  exact {
    leftKeys := hbuilt.leftKeys
    rightKeys := hbuilt.rightKeys
    leftPositions := by
      rw [hbuilt.leftRest]
      exact hbuilt.leftKeys.perm_range hleftDistinct
    rightPositions := by
      rw [hbuilt.rightRest]
      exact hbuilt.rightKeys.perm_range hjoinable.rightDistinct
    columns := ⟨_, hbuilt.leftKeys.forall₂_pick, houtput⟩
    named := j.output.named
    distinct := j.output.distinct }

/-- Two schemas are joined exactly if their named columns allow it; a join has all columns but the
right keys, under names that occur once. -/
theorem onColumns_iff_joinable (type : JoinType) (left right : Schema)
    (leftColumns rightColumns : List String) :
    ((∃ j, onColumns type left right leftColumns rightColumns = .ok j) ↔
        Joinable left right leftColumns rightColumns) ∧
      (∀ e, onColumns type left right leftColumns rightColumns = .error e →
        ∃ fault, e = .join fault) ∧
      ∀ j, onColumns type left right leftColumns rightColumns = .ok j →
        j.type = type ∧ j.left = left ∧ j.right = right ∧ j.Arranged leftColumns rightColumns := by
  refine ⟨⟨?_, fun h => h.exists_onColumns type⟩, exists_fault, ?_⟩
  · rintro ⟨j, h⟩
    exact joinable_of_onColumns h
  · intro j h
    obtain ⟨htype, hleft, hright, -⟩ := built_of_onColumns h
    exact ⟨htype, hleft, hright, arranged_of_onColumns h⟩

theorem onColumns_iff_joinable_of_renamed :
    let left : Schema :=
      ⟨[⟨"x", .double⟩, ⟨"id", .integer⟩, ⟨"label", .string⟩], by decide, by decide⟩
    let right : Schema := ⟨[⟨"y", .bytes⟩, ⟨"label", .integer⟩], by decide, by decide⟩
    let other : Schema := ⟨[⟨"x", .bytes⟩, ⟨"label", .integer⟩], by decide, by decide⟩
    (∃ j, onColumns .leftOuter left right ["id"] ["label"] = .ok j ∧
        Joinable left right ["id"] ["label"] ∧ j.Arranged ["id"] ["label"] ∧
        j.output.names = ["id", "x", "label", "y"]) ∧
      ¬Joinable left other ["id"] ["label"] ∧
      ∃ e fault, onColumns .inner left other ["id"] ["label"] = .error e ∧ e = .join fault := by
  intro left right other
  obtain ⟨hiff, -, harranged⟩ := onColumns_iff_joinable .leftOuter left right ["id"] ["label"]
  obtain ⟨hiff', hfault, -⟩ := onColumns_iff_joinable .inner left other ["id"] ["label"]
  have hj : onColumns .leftOuter left right ["id"] ["label"] = .ok _ := rfl
  have he : onColumns .inner left other ["id"] ["label"] =
      .error (.join (.nameCollision ["x"])) := rfl
  refine ⟨⟨_, hj, hiff.1 ⟨_, hj⟩, (harranged _ hj).2.2.2, rfl⟩, ?_, ?_⟩
  · intro hjoinable
    obtain ⟨j, h⟩ := hiff'.2 hjoinable
    cases he.symm.trans h
  · obtain ⟨fault, hfault⟩ := hfault _ he
    exact ⟨_, fault, he, hfault⟩

end Join

end Tabular
