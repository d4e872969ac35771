import Tabular.Definition.Join
import Tabular.Proofs.Definition.Schema
import Tabular.Proofs.Join.Basic
import Tabular.Sequence.Split

namespace Tabular

theorem JoinType.ofName?_name (type : JoinType) : ofName? type.name = some type := by
  cases type <;> decide

theorem Node.texts?_map (names : List String) : (list (names.map text)).texts? = some names := by
  have htexts : (names.map text).mapM text? = some (names.map id) :=
    mapM_map_eq_pure fun _ _ => rfl
  rw [List.map_id] at htexts
  exact htexts

namespace Join

theorem ofDefinition_toDefinition_eq (j : Join) : ofDefinition j.toDefinition =
    onColumns j.type j.left j.right j.leftKeyColumns j.rightKeyColumns := by
  have hleftColumns : readField j.toDefinition "joinColumnsLeft" (shaped Node.texts?) =
      .ok (some j.leftKeyColumns) := by
    change (shaped Node.texts? (.list (j.leftKeyColumns.map .text))).map some = _
    rw [shaped, Node.texts?_map]
    rfl
  have hrightColumns : readField j.toDefinition "joinColumnsRight" (shaped Node.texts?) =
      .ok (some j.rightKeyColumns) := by
    change (shaped Node.texts? (.list (j.rightKeyColumns.map .text))).map some = _
    rw [shaped, Node.texts?_map]
    rfl
  have htype : readField j.toDefinition "joinType"
      (shaped (Node.choice? false JoinType.ofName?)) = .ok (some j.type) := by
    change (shaped (Node.choice? false JoinType.ofName?) (.text j.type.name)).map some = _
    rw [shaped, Node.choice?, JoinType.ofName?_name]
    rfl
  have hleft : readField j.toDefinition "leftSchema" Schema.ofNode = .ok (some j.left) := by
    change (Schema.ofNode (.object j.left.toDefinition)).map some = _
    rw [j.left.ofNode_toDefinition]
    rfl
  have hright : readField j.toDefinition "rightSchema" Schema.ofNode = .ok (some j.right) := by
    change (Schema.ofNode (.object j.right.toDefinition)).map some = _
    rw [j.right.ofNode_toDefinition]
    rfl
  rw [ofDefinition, hleftColumns, hrightColumns, htype, hleft, hright]
  rfl

theorem ofDefinition_of_onColumns {type : JoinType} {left right : Schema}
    {leftColumns rightColumns : List String} {j : Join}
    (built : onColumns type left right leftColumns rightColumns = .ok j) :
    ofDefinition j.toDefinition = .ok j := by
  obtain ⟨rfl, rfl, rfl, h⟩ := built_of_onColumns built
  rw [ofDefinition_toDefinition_eq, leftKeyColumns, rightKeyColumns, h.leftKeys.names_pick,
    h.rightKeys.names_pick, built]

theorem exists_onColumns {d : Definition} {j : Join} (h : ofDefinition d = .ok j) :
    ∃ type left right leftColumns rightColumns,
      onColumns type left right leftColumns rightColumns = .ok j := by
  rw [ofDefinition] at h
  obtain ⟨leftColumns, -, h⟩ := bind_eq_ok.1 h
  obtain ⟨rightColumns, -, h⟩ := bind_eq_ok.1 h
  obtain ⟨type, -, h⟩ := bind_eq_ok.1 h
  obtain ⟨left, -, h⟩ := bind_eq_ok.1 h
  obtain ⟨right, -, h⟩ := bind_eq_ok.1 h
  split at h
  · exact ⟨_, _, _, _, _, h⟩
  · cases h

end Join

namespace LengthSplit

theorem ofSize_size (s : LengthSplit) : ofSize s.size s.equal = .ok s := by
  rw [ofSize, dif_neg (Nat.pos_iff_ne_zero.1 s.size_pos)]

theorem exists_ofSize {size : UInt64} (hsize : size ≠ 0) (equal : Bool) :
    ∃ s, ofSize size equal = .ok s := by
  have hne : size.toNat ≠ 0 := mt (UInt64.toNat_inj (b := 0)).1 hsize
  exact ⟨_, dif_neg hne⟩

end LengthSplit

namespace GapSplit

theorem ofGap_maxGap (s : GapSplit) : ofGap s.timeColumn s.maxGap = .ok s := by
  rw [ofGap, dif_pos s.maxGap_nonneg]

theorem exists_ofGap {maxGap : Int64} (hgap : 0 ≤ maxGap.toInt) (timeColumn : String) :
    ∃ s, ofGap timeColumn maxGap = .ok s :=
  ⟨_, dif_pos hgap⟩

end GapSplit

theorem SequenceSplit.ofDefinition_eq {d : Definition} {s : SequenceSplit}
    (h : d.lookup "type" = some (.text "SplitMaxLengthSequence") ∧ lengthOf? d = some (.ok s) ∨
      d.lookup "type" = some (.text "SplitTimeSeparation") ∧ gapOf? d = some (.ok s)) :
    ofDefinition d = .ok s := by
  rcases h with ⟨htype, hread⟩ | ⟨htype, hread⟩
  · simp only [ofDefinition, htype, hread]
  · simp only [ofDefinition, htype, hread]

theorem SequenceSplit.ofDefinition_toDefinition_eq (s : SequenceSplit) :
    ofDefinition s.toDefinition = .ok s := by
  cases s with
  | length l =>
    have hrange : (0 : Int) ≤ (l.size.toNat : Int) ∧ (l.size.toNat : Int) ≤ 2 ^ 64 - 1 := by
      have hlt := l.size.toNat_lt
      omega
    have hsize : (Node.whole l.maxLength).wholeIn? 0 (2 ^ 64 - 1) = some (l.size.toNat : Int) := by
      rw [Node.wholeIn?, Node.whole?, LengthSplit.maxLength, Option.filter_some,
        if_pos (decide_eq_true hrange)]
    have hread : lengthOf? (toDefinition (.length l)) = some (.ok (.length l)) := by
      change (Node.whole l.maxLength).wholeIn? 0 (2 ^ 64 - 1) >>= _ = _
      rw [hsize]
      change some ((LengthSplit.ofSize ((l.size.toNat : Int).toNat.toUInt64) l.equal).map
        SequenceSplit.length) = _
      rw [Int.toNat_natCast, Nat.toUInt64_eq, UInt64.ofNat_toNat, l.ofSize_size]
      rfl
    exact ofDefinition_eq (.inl ⟨rfl, hread⟩)
  | gap g =>
    have hread : gapOf? (toDefinition (.gap g)) = some (.ok (.gap g)) := by
      change (Node.whole g.maxGap.toInt).int64? >>= _ = _
      rw [Node.int64?_toInt]
      change some ((GapSplit.ofGap g.timeColumn g.maxGap).map SequenceSplit.gap) = _
      rw [g.ofGap_maxGap]
      rfl
    exact ofDefinition_eq (.inr ⟨rfl, hread⟩)

/-- Schemas, joins and splits are restored from their definitions as they were, and so is whatever
has been restored. -/
theorem Definition.restores_exported :
    (∀ s : Schema, Schema.ofDefinition s.toDefinition = .ok s) ∧
    (∀ (type : JoinType) (left right : Schema) (leftColumns rightColumns : List String) (j : Join),
      Join.onColumns type left right leftColumns rightColumns = .ok j →
      Join.ofDefinition j.toDefinition = .ok j) ∧
    (∀ (size : UInt64) (equal : Bool), size ≠ 0 → ∃ s, LengthSplit.ofSize size equal = .ok s ∧
      SequenceSplit.ofDefinition (SequenceSplit.length s).toDefinition = .ok (.length s)) ∧
    (∀ (timeColumn : String) (maxGap : Int64), 0 ≤ maxGap.toInt →
      ∃ s, GapSplit.ofGap timeColumn maxGap = .ok s ∧
        SequenceSplit.ofDefinition (SequenceSplit.gap s).toDefinition = .ok (.gap s)) ∧
    (∀ d s, Schema.ofDefinition d = .ok s → Schema.ofDefinition s.toDefinition = .ok s) ∧
    (∀ d j, Join.ofDefinition d = .ok j → Join.ofDefinition j.toDefinition = .ok j) ∧
    ∀ d s, SequenceSplit.ofDefinition d = .ok s →
      SequenceSplit.ofDefinition s.toDefinition = .ok s := by
  refine ⟨Schema.ofDefinition_toDefinition_eq, ?_, ?_, ?_, ?_, ?_, ?_⟩
  · intro type left right leftColumns rightColumns j built
    exact Join.ofDefinition_of_onColumns built
  · intro size equal hsize
    obtain ⟨s, hs⟩ := LengthSplit.exists_ofSize hsize equal
    exact ⟨s, hs, SequenceSplit.ofDefinition_toDefinition_eq (.length s)⟩
  · intro timeColumn maxGap hgap
    obtain ⟨s, hs⟩ := GapSplit.exists_ofGap hgap timeColumn
    exact ⟨s, hs, SequenceSplit.ofDefinition_toDefinition_eq (.gap s)⟩
  · intro d s _
    exact s.ofDefinition_toDefinition_eq
  · intro d j h
    obtain ⟨type, left, right, leftColumns, rightColumns, built⟩ := Join.exists_onColumns h
    exact Join.ofDefinition_of_onColumns built
  · intro d s _
    exact s.ofDefinition_toDefinition_eq

theorem Definition.restores_exported_of_reordered :
    let left : Schema :=
      ⟨[⟨"id", .integer⟩, ⟨"x", .double⟩, ⟨"name", .string⟩], by decide, by decide⟩
    let right : Schema :=
      ⟨[⟨"label", .string⟩, ⟨"key", .integer⟩, ⟨"y", .bytes⟩], by decide, by decide⟩
    let short : Definition :=
      [("columns", .list [.list [.text "a", .object [("Byte", .null)]]]), ("note", .null)]
    ∃ j, Join.onColumns .rightOuter left right ["name", "id"] ["label", "key"] = .ok j ∧
      j.leftKeys = [2, 0] ∧ j.rightKeys = [0, 1] ∧ Join.ofDefinition j.toDefinition = .ok j ∧
      (∃ s, LengthSplit.ofSize 18446744073709551615 true = .ok s ∧
        SequenceSplit.ofDefinition (SequenceSplit.length s).toDefinition = .ok (.length s)) ∧
      (∃ s, GapSplit.ofGap "t" 9223372036854775807 = .ok s ∧
        SequenceSplit.ofDefinition (SequenceSplit.gap s).toDefinition = .ok (.gap s)) ∧
      (∃ s, Schema.ofDefinition short = .ok s ∧ Schema.ofDefinition s.toDefinition = .ok s) ∧
      (∃ k, Join.ofDefinition (("note", .null) :: j.toDefinition) = .ok k ∧
        Join.ofDefinition k.toDefinition = .ok k) ∧
      ∃ s, SequenceSplit.ofDefinition [("type", .text "SplitTimeSeparation"),
          ("timeColumn", .text "t"), ("maxGap", .whole 0)] = .ok s ∧
        SequenceSplit.ofDefinition s.toDefinition = .ok s := by
  intro left right short
  obtain ⟨-, built, lengths, gaps, schemas, joins, splits⟩ := restores_exported
  have hj : Join.onColumns .rightOuter left right ["name", "id"] ["label", "key"] = .ok _ := rfl
  have hshort : Schema.ofDefinition short = .ok _ := rfl
  have hlong : Join.ofDefinition (("note", .null) :: Join.toDefinition _) = .ok _ :=
    built _ _ _ _ _ _ hj
  have hgap : SequenceSplit.ofDefinition [("type", .text "SplitTimeSeparation"),
      ("timeColumn", .text "t"), ("maxGap", .whole 0)] = .ok _ := rfl
  exact ⟨_, hj, rfl, rfl, built _ _ _ _ _ _ hj, lengths _ true (by decide),
    gaps "t" _ (by decide), ⟨_, hshort, schemas _ _ hshort⟩, ⟨_, hlong, joins _ _ hlong⟩,
    _, hgap, splits _ _ hgap⟩

end Tabular
