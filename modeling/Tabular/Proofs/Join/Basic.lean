import Tabular.Join.Basic
import Tabular.Proofs.Schema

namespace Tabular

theorem Schema.requireIndex_eq_ok {s : Schema} {name : String} {i : Nat} :
    s.requireIndex name = .ok i ↔ s.indexOf? name = some i := by
  rw [Schema.requireIndex]
  split
  · next h => simp [h]
  · next h => simp [h]

theorem Schema.ofFields_eq_ok {fields : List Field} {s : Schema}
    (h : Schema.ofFields fields = .ok s) : s.fields = fields := by
  rw [Schema.ofFields, Schema.check] at h
  split at h
  · cases h
  · cases h
    rfl

/-- The columns at some positions are named by some names, one by one. -/
def Schema.Names (s : Schema) (columns : List String) (positions : List Nat) : Prop :=
  List.Forall₂ (fun name i => s.indexOf? name = some i) columns positions

theorem Schema.mapM_requireIndex {s : Schema} {columns : List String} {positions : List Nat} :
    columns.mapM s.requireIndex = .ok positions ↔ s.Names columns positions := by
  rw [mapM_eq_ok, Schema.Names]
  simp only [Schema.requireIndex_eq_ok]

theorem Schema.Names.forall₂_pick {s : Schema} {columns : List String} {positions : List Nat}
    (h : s.Names columns positions) :
    List.Forall₂ (fun name f => f ∈ s.fields ∧ f.name = name) columns (s.pick positions) := by
  induction h with
  | nil => exact .nil
  | cons hname htail ih =>
    have hfield := indexOf?_eq_some.1 hname
    rw [Schema.names, List.getElem?_map, Option.map_eq_some_iff] at hfield
    obtain ⟨f, hf, hfname⟩ := hfield
    rw [Schema.pick] at *
    rw [List.filterMap_cons, hf]
    exact .cons ⟨List.mem_of_getElem? hf, hfname⟩ ih

theorem Schema.Names.names_pick {s : Schema} {columns : List String} {positions : List Nat}
    (h : s.Names columns positions) : (s.pick positions).map Field.name = columns := by
  have hnames : List.Forall₂ (· = ·) columns ((s.pick positions).map Field.name) :=
    List.forall₂_map_right_iff.2 (h.forall₂_pick.imp fun _ _ hf => hf.2.symm)
  rw [List.forall₂_eq_eq_eq] at hnames
  exact hnames.symm

namespace Join

/-- The parts of a join on columns that are named for each side. -/
structure Built (leftColumns rightColumns : List String) (j : Join) : Prop where
  lengths : leftColumns.length = rightColumns.length
  leftKeys : j.left.Names leftColumns j.leftKeys
  rightKeys : j.right.Names rightColumns j.rightKeys
  typesAgree : mismatchedKeys (j.left.pick j.leftKeys) (j.right.pick j.rightKeys) = []
  leftRest : j.leftRest = j.left.positionsExcept j.leftKeys
  rightRest : j.rightRest = j.right.positionsExcept j.rightKeys
  output : j.output.fields =
    j.left.pick j.leftKeys ++ j.left.pick j.leftRest ++ j.right.pick j.rightRest

theorem built_of_onColumns {type : JoinType} {left right : Schema}
    {leftColumns rightColumns : List String} {j : Join}
    (h : onColumns type left right leftColumns rightColumns = .ok j) :
    j.type = type ∧ j.left = left ∧ j.right = right ∧ Built leftColumns rightColumns j := by
  simp only [onColumns, guard_eq_ok] at h
  obtain ⟨-, hlengths, -, h⟩ := h
  split at h
  · cases h
  · simp only [bind_eq_ok, guard_eq_ok] at h
    obtain ⟨leftKeys, hleft, rightKeys, hright, hagree, -, output, houtput, h⟩ := h
    cases h
    refine ⟨rfl, rfl, rfl, ?_⟩
    exact {
      lengths := Decidable.not_not.1 hlengths
      leftKeys := Schema.mapM_requireIndex.1 hleft
      rightKeys := Schema.mapM_requireIndex.1 hright
      typesAgree := by simpa using hagree
      leftRest := rfl
      rightRest := rfl
      output := Schema.ofFields_eq_ok houtput }

end Join

end Tabular
