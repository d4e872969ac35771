import Mathlib.Data.Multiset.Bind
import Tabular.Proofs.Join.NestedLoop

namespace Tabular

/-- The kind of join that keeps the same rows after the sides are exchanged. -/
def JoinType.mirror : JoinType → JoinType
  | inner => inner
  | leftOuter => rightOuter
  | rightOuter => leftOuter
  | fullOuter => fullOuter

namespace JoinType

variable (type : JoinType)

theorem keepsLeft_iff : type.keepsLeft = true ↔ type = .leftOuter ∨ type = .fullOuter := by
  cases type <;> simp [keepsLeft]

theorem keepsRight_iff : type.keepsRight = true ↔ type = .rightOuter ∨ type = .fullOuter := by
  cases type <;> simp [keepsRight]

theorem keepsLeft_mirror : type.mirror.keepsLeft = type.keepsRight := by
  cases type <;> rfl

theorem keepsRight_mirror : type.mirror.keepsRight = type.keepsLeft := by
  cases type <;> rfl

end JoinType

theorem Schema.Names.unique {s : Schema} {columns : List String} {positions others : List Nat}
    (h : s.Names columns positions) (h' : s.Names columns others) : positions = others := by
  induction h generalizing others with
  | nil =>
    cases h'
    rfl
  | cons hname htail ih =>
    cases h' with
    | cons hname' htail' =>
      rw [ih htail']
      congr 1
      exact Option.some.inj (hname.symm.trans hname')

theorem Schema.lt_size_of_mem_positionsExcept {s : Schema} {positions : List Nat} :
    ∀ i ∈ s.positionsExcept positions, i < s.size := by
  intro i hi
  exact List.mem_range.1 (List.mem_of_mem_filter hi)

theorem Row.length_pick {row : Row} {positions : List Nat} (h : ∀ i ∈ positions, i < row.length) :
    (Row.pick row positions).length = positions.length := by
  induction positions with
  | nil => rfl
  | cons i positions ih =>
    obtain ⟨hi, htail⟩ := List.forall_mem_cons.1 h
    have hlength := ih htail
    rw [pick] at *
    rw [List.filterMap_cons, List.getElem?_eq_getElem hi, List.length_cons, List.length_cons,
      hlength]

theorem Schema.length_nullsAt {s : Schema} {positions : List Nat}
    (h : ∀ i ∈ positions, i < s.size) : (s.nullsAt positions).length = positions.length := by
  induction positions with
  | nil => rfl
  | cons i positions ih =>
    obtain ⟨hi, htail⟩ := List.forall_mem_cons.1 h
    have hlength := ih htail
    have hfield : s.fields[i]? = some s.fields[i] := List.getElem?_eq_getElem hi
    rw [nullsAt] at *
    rw [List.filterMap_cons, hfield, Option.map_some, List.length_cons, List.length_cons, hlength]

namespace Join

section Pairs

variable {type : JoinType} {agree : Row → Row → Bool} {both : Row → Row → Row}
  {onlyLeft onlyRight : Row → Row}

/-- The pairs of a left and a right row that agree, each as often as it occurs. -/
def pairs (agree : Row → Row → Bool) (left right : List Row) : Multiset (Row × Row) :=
  ((left : Multiset Row) ×ˢ (right : Multiset Row)).filter fun p => agree p.1 p.2 = true

/-- The rows of one side that agree with no row of the other, if they are kept. -/
def alone (agree : Row → Row → Bool) (keep : Bool) (rows others : List Row) : List Row :=
  if keep then rows.filter fun row => !others.any (agree row) else []

theorem mem_pairs {left right : List Row} {p : Row × Row} :
    p ∈ pairs agree left right ↔ p.1 ∈ left ∧ p.2 ∈ right ∧ agree p.1 p.2 = true := by
  rw [pairs, Multiset.mem_filter, Multiset.mem_product, Multiset.mem_coe, Multiset.mem_coe,
    and_assoc]

theorem pairs_cons (l : Row) (left right : List Row) : pairs agree (l :: left) right =
    ((right.filter (agree l)).map (Prod.mk l) : List (Row × Row)) + pairs agree left right := by
  rw [pairs, ← Multiset.cons_coe, Multiset.cons_product, Multiset.filter_add, ← pairs,
    Multiset.map_coe, Multiset.filter_coe, List.filter_map]
  simp [Function.comp_def]

theorem pairs_swap (left right : List Row) :
    pairs (fun r l => agree l r) right left = (pairs agree left right).map Prod.swap := by
  rw [pairs, pairs, ← Multiset.map_swap_product, Multiset.filter_map]
  rfl

theorem coe_flatMap (keep : Bool) (left right : List Row) :
    (left.flatMap (fun l =>
      if right.any (agree l) then (right.filter (agree l)).map (both l)
      else if keep then [onlyLeft l] else []) : Multiset Row) =
      (pairs agree left right).map (fun p => both p.1 p.2) +
        ((alone agree keep left right).map onlyLeft : List Row) := by
  induction left with
  | nil => simp [pairs, alone]
  | cons l left ih =>
    rw [List.flatMap_cons, ← Multiset.coe_add, ih, pairs_cons, Multiset.map_add, Multiset.map_coe,
      List.map_map]
    cases hany : right.any (agree l) with
    | true =>
      have halone : alone agree keep (l :: left) right = alone agree keep left right := by
        simp [alone, hany]
      rw [if_pos rfl, halone, add_assoc]
      rfl
    | false =>
      have hnone : right.filter (agree l) = [] := by
        rw [List.filter_eq_nil_iff]
        exact List.any_eq_false.1 hany
      have halone : alone agree keep (l :: left) right =
          (if keep then [l] else []) ++ alone agree keep left right := by
        cases keep <;> simp [alone, hany]
      rw [if_neg Bool.false_ne_true, hnone, halone, List.map_append, ← Multiset.coe_add,
        List.map_nil, Multiset.coe_nil, zero_add, add_left_comm]
      cases keep <;> rfl

/-- A nested loop gives the rows of pairs and the rows of either side that are kept alone. -/
theorem coe_nestedLoop (left right : List Row) :
    (nestedLoop type agree both onlyLeft onlyRight left right : Multiset Row) =
      (pairs agree left right).map (fun p => both p.1 p.2) +
        (((alone agree type.keepsLeft left right).map onlyLeft : List Row) +
          ((alone (fun r l => agree l r) type.keepsRight right left).map onlyRight :
            List Row)) := by
  simp only [nestedLoop, ← JoinType.keepsLeft_iff, ← JoinType.keepsRight_iff]
  rw [← Multiset.coe_add, coe_flatMap, add_assoc]
  cases type.keepsRight <;> rfl

end Pairs

/-- A row of the exchanged join with the columns of the two sides in exchanged places. -/
def mirrored (j : Join) (row : Row) : Row :=
  let keys := j.leftKeys.length
  let rest := j.rightRest.length
  row.take keys ++ row.drop (keys + rest) ++ (row.drop keys).take rest

/-- Joined rows that differ at most in their key cells, where they have the same complete key. -/
def SameButKeys (keys : Nat) (row other : Row) : Prop :=
  (∃ key, (row.take keys).mapM Key.of? = some key ∧ (other.take keys).mapM Key.of? = some key) ∧
    row.drop keys = other.drop keys

/-- The rows that a join makes of the pairs that agree. -/
def matched (j : Join) (left right : List Row) : Multiset Row :=
  (pairs j.agree left right).map fun p => j.leftOf p.1 (some p.2)

/-- One join works with the positions of the other, with the sides exchanged. -/
structure Mirrors (j k : Join) : Prop where
  type : k.type = j.type.mirror
  left : k.left = j.right
  right : k.right = j.left
  leftKeys : k.leftKeys = j.rightKeys
  rightKeys : k.rightKeys = j.leftKeys
  leftRest : k.leftRest = j.rightRest
  rightRest : k.rightRest = j.leftRest

variable {leftColumns rightColumns : List String} {j k : Join}

theorem Built.mirrors (hj : Built leftColumns rightColumns j)
    (hk : Built rightColumns leftColumns k)
    (type : k.type = j.type.mirror) (left : k.left = j.right) (right : k.right = j.left) :
    Mirrors j k := by
  have hkeys : k.leftKeys = j.rightKeys := (left ▸ hk.leftKeys).unique hj.rightKeys
  have hkeys' : k.rightKeys = j.leftKeys := (right ▸ hk.rightKeys).unique hj.leftKeys
  exact {
    type, left, right
    leftKeys := hkeys
    rightKeys := hkeys'
    leftRest := by rw [hk.leftRest, hj.rightRest, left, hkeys]
    rightRest := by rw [hk.rightRest, hj.leftRest, right, hkeys'] }

theorem Mirrors.agree_eq (h : Mirrors j k) : k.agree = fun r l => j.agree l r := by
  funext r l
  rw [agree, agree, h.leftKeys, h.rightKeys]
  cases keyOf? j.rightKeys r with
  | none => cases keyOf? j.leftKeys l <;> rfl
  | some key =>
    cases keyOf? j.leftKeys l with
    | none => rfl
    | some key' => exact decide_eq_decide.2 eq_comm

/-- The positions of a join that was built lie within its schemas. -/
structure Bounded (j : Join) : Prop where
  leftKeys : ∀ i ∈ j.leftKeys, i < j.left.size
  rightKeys : ∀ i ∈ j.rightKeys, i < j.right.size
  leftRest : ∀ i ∈ j.leftRest, i < j.left.size
  rightRest : ∀ i ∈ j.rightRest, i < j.right.size
  lengths : j.leftKeys.length = j.rightKeys.length

theorem Built.bounded (h : Built leftColumns rightColumns j) : Bounded j where
  leftKeys := h.leftKeys.lt_size
  rightKeys := h.rightKeys.lt_size
  leftRest := h.leftRest ▸ Schema.lt_size_of_mem_positionsExcept
  rightRest := h.rightRest ▸ Schema.lt_size_of_mem_positionsExcept
  lengths := by
    rw [← List.Forall₂.length_eq h.leftKeys, ← List.Forall₂.length_eq h.rightKeys, h.lengths]

theorem mirrored_append {keys rest others : Row} (hkeys : keys.length = j.leftKeys.length)
    (hrest : rest.length = j.rightRest.length) :
    j.mirrored (keys ++ rest ++ others) = keys ++ others ++ rest := by
  have hdrop : (keys ++ rest ++ others).drop keys.length = rest ++ others := by
    rw [List.append_assoc, List.drop_left]
  have htake : (keys ++ rest ++ others).take keys.length = keys := by
    rw [List.append_assoc, List.take_left]
  rw [mirrored, ← hkeys, ← hrest, ← List.drop_drop, hdrop, htake, List.drop_left, List.take_left]

variable {left right : List Row} {l r : Row}

theorem leftOf_eq (j : Join) (row : Row) (partner : Option Row) : j.leftOf row partner =
    Row.pick row j.leftKeys ++ Row.pick row j.leftRest ++
      partner.elim (j.right.nullsAt j.rightRest) (Row.pick · j.rightRest) := by
  cases partner <;> rfl

theorem Bounded.mirrored_leftOf (h : Bounded j) (hk : Mirrors j k) (hr : r.length = j.right.size)
    (partner : Option Row) : j.mirrored (k.leftOf r partner) =
      Row.pick r j.rightKeys ++
        partner.elim (j.left.nullsAt j.leftRest) (Row.pick · j.leftRest) ++
        Row.pick r j.rightRest := by
  have hkeys : (Row.pick r j.rightKeys).length = j.leftKeys.length := by
    rw [Row.length_pick fun i hi => hr ▸ h.rightKeys i hi, h.lengths]
  have hrest := Row.length_pick fun i hi => hr ▸ h.rightRest i hi
  rw [leftOf_eq, hk.leftKeys, hk.leftRest, hk.rightRest, hk.right]
  exact mirrored_append hkeys hrest

theorem Bounded.mirrored_rightOf (h : Bounded j) (hk : Mirrors j k) (hl : l.length = j.left.size) :
    j.mirrored (k.rightOf l) = j.leftOf l none := by
  have hkeys := Row.length_pick fun i hi => hl ▸ h.leftKeys i hi
  have hrest := Schema.length_nullsAt h.rightRest
  rw [rightOf, hk.rightKeys, hk.leftRest, hk.rightRest, hk.left]
  exact mirrored_append hkeys hrest

theorem Bounded.sameButKeys (h : Bounded j) (hk : Mirrors j k) (hl : l.length = j.left.size)
    (hr : r.length = j.right.size) (hagree : j.agree l r = true) :
    SameButKeys j.leftKeys.length (j.leftOf l (some r)) (j.mirrored (k.leftOf r (some l))) := by
  have hleft : ∀ i ∈ j.leftKeys, i < l.length := fun i hi => hl ▸ h.leftKeys i hi
  have hright : ∀ i ∈ j.rightKeys, i < r.length := fun i hi => hr ▸ h.rightKeys i hi
  have hlength := Row.length_pick hleft
  have hlength' := (Row.length_pick hright).trans h.lengths.symm
  rw [h.mirrored_leftOf hk hr, Option.elim_some, leftOf, SameButKeys, List.append_assoc,
    List.append_assoc, List.take_left' hlength, List.take_left' hlength', List.drop_left' hlength,
    List.drop_left' hlength', ← keyOf?_eq_mapM hleft, ← keyOf?_eq_mapM hright]
  refine ⟨?_, rfl⟩
  rw [agree] at hagree
  split at hagree
  · next key key' hkey hkey' =>
    have heq : key' = key := of_decide_eq_true hagree
    exact ⟨key, hkey, heq ▸ hkey'⟩
  · cases hagree

theorem coe_joined (j : Join) (left right : List Row) : (j.joined left right : Multiset Row) =
    j.matched left right +
      (((alone j.agree j.type.keepsLeft left right).map (j.leftOf · none) : List Row) +
        ((alone (fun r l => j.agree l r) j.type.keepsRight right left).map j.rightOf :
          List Row)) := by
  rw [joined_eq_nestedLoop, coe_nestedLoop, matched]

theorem mem_of_mem_alone {agree : Row → Row → Bool} {keep : Bool} {rows others : List Row}
    {row : Row} (h : row ∈ alone agree keep rows others) : row ∈ rows := by
  cases keep with
  | true => exact List.mem_of_mem_filter h
  | false => cases h

theorem Bounded.map_mirrored_joined (h : Bounded j) (hk : Mirrors j k)
    (hleft : ∀ l ∈ left, l.length = j.left.size) (hright : ∀ r ∈ right, r.length = j.right.size) :
    (k.joined right left : Multiset Row).map j.mirrored =
      (k.matched right left).map j.mirrored +
      (((alone j.agree j.type.keepsLeft left right).map (j.leftOf · none) : List Row) +
        ((alone (fun r l => j.agree l r) j.type.keepsRight right left).map j.rightOf :
          List Row)) := by
  have honlyLeft : ((alone j.agree j.type.keepsLeft left right).map k.rightOf).map j.mirrored =
      (alone j.agree j.type.keepsLeft left right).map (j.leftOf · none) := by
    rw [List.map_map]
    exact List.map_congr_left fun l hl => h.mirrored_rightOf hk (hleft l (mem_of_mem_alone hl))
  have honlyRight : ((alone (fun r l => j.agree l r) j.type.keepsRight right left).map
      (k.leftOf · none)).map j.mirrored =
      (alone (fun r l => j.agree l r) j.type.keepsRight right left).map j.rightOf := by
    rw [List.map_map]
    exact List.map_congr_left fun r hr =>
      h.mirrored_leftOf hk (hright r (mem_of_mem_alone hr)) none
  rw [coe_joined k, hk.agree_eq, hk.type, JoinType.keepsLeft_mirror, JoinType.keepsRight_mirror,
    Multiset.map_add, Multiset.map_add, Multiset.map_coe, Multiset.map_coe, honlyLeft, honlyRight,
    add_comm (Multiset.ofList (List.map j.rightOf _))]

/-- The pairs that agree are the same for both joins, and each gives the same row but for the
representation of its keys. -/
theorem Bounded.rel_matched (h : Bounded j) (hk : Mirrors j k)
    (hleft : ∀ l ∈ left, l.length = j.left.size) (hright : ∀ r ∈ right, r.length = j.right.size) :
    Multiset.Rel (SameButKeys j.leftKeys.length) (j.matched left right)
      ((k.matched right left).map j.mirrored) := by
  have hswap : pairs k.agree right left = (pairs j.agree left right).map Prod.swap := by
    rw [hk.agree_eq]
    exact pairs_swap left right
  rw [matched, matched, hswap, Multiset.map_map, Multiset.map_map, Multiset.rel_map]
  apply Multiset.rel_refl_of_refl_on
  intro p hp
  obtain ⟨hl, hr, hpair⟩ := mem_pairs.1 hp
  exact h.sameButKeys hk (hleft p.1 hl) (hright p.2 hr) hpair

theorem execute_eq_joined (hleft : ∀ l ∈ left, l.length = j.left.size)
    (hright : ∀ r ∈ right, r.length = j.right.size) :
    j.execute left right = .ok (j.joined left right) := by
  rcases j.execute_cases left right with ⟨hok, -⟩ | ⟨-, ⟨l, hl, hne⟩ | ⟨r, hr, hne⟩⟩
  · exact hok
  · exact absurd (hleft l hl) hne
  · exact absurd (hright r hr) hne

/-- Exchanging the sides of a join gives the same rows up to order and places, rows of pairs up to
the representation of their keys. -/
theorem execute_mirror {type : JoinType} {leftSchema rightSchema : Schema}
    {leftColumns rightColumns : List String} {j k : Join}
    (built : onColumns type leftSchema rightSchema leftColumns rightColumns = .ok j)
    (exchanged : onColumns type.mirror rightSchema leftSchema rightColumns leftColumns = .ok k)
    {left right : List Row} (hleft : ∀ l ∈ left, l.length = leftSchema.size)
    (hright : ∀ r ∈ right, r.length = rightSchema.size) :
    ∃ rows rows' matched' alone,
      j.execute left right = .ok rows ∧ k.execute right left = .ok rows' ∧
      (rows : Multiset Row) = j.matched left right + alone ∧
      (rows' : Multiset Row).map j.mirrored = matched' + alone ∧
      Multiset.Rel (SameButKeys j.leftKeys.length) (j.matched left right) matched' := by
  obtain ⟨rfl, rfl, rfl, hj⟩ := built_of_onColumns built
  obtain ⟨htype, hkleft, hkright, hk⟩ := built_of_onColumns exchanged
  have hmirrors : Mirrors j k := hj.mirrors hk htype hkleft hkright
  have hexecute := execute_eq_joined hleft hright
  have hexecute' := execute_eq_joined (hkleft ▸ hright) (hkright ▸ hleft)
  exact ⟨_, _, _, _, hexecute, hexecute', j.coe_joined left right,
    hj.bounded.map_mirrored_joined hmirrors hleft hright,
    hj.bounded.rel_matched hmirrors hleft hright⟩

theorem execute_mirror_of_zeros :
    let leftSchema : Schema :=
      ⟨[⟨"name", .string⟩, ⟨"x", .double⟩, ⟨"n", .integer⟩], by decide, by decide⟩
    let rightSchema : Schema :=
      ⟨[⟨"y", .double⟩, ⟨"tag", .byte⟩, ⟨"key", .string⟩], by decide, by decide⟩
    let zero : Value := .double .zero
    let minus : Value := .double (Binary.zero.neg)
    let left : List Row :=
      [[.string "a", zero, .integer 7], [.string "b", .null .double, .integer 8],
        [.string "c", zero, .integer 9]]
    let right : List Row := [[minus, .byte 1, .string "a"], [zero, .byte 2, .string "a"]]
    ∃ j k, onColumns .leftOuter leftSchema rightSchema ["x", "name"] ["y", "key"] = .ok j ∧
      onColumns .rightOuter rightSchema leftSchema ["y", "key"] ["x", "name"] = .ok k ∧
      ∃ rows rows' matched' alone,
        j.execute left right = .ok rows ∧ k.execute right left = .ok rows' ∧
        (rows : Multiset Row) = j.matched left right + alone ∧
        (rows' : Multiset Row).map j.mirrored = matched' + alone ∧
        Multiset.Rel (SameButKeys 2) (j.matched left right) matched' := by
  intro leftSchema rightSchema zero minus left right
  have built : onColumns .leftOuter leftSchema rightSchema ["x", "name"] ["y", "key"] =
      .ok ⟨.leftOuter, leftSchema, rightSchema, [1, 0], [0, 2], [2], [1],
        ⟨[⟨"x", .double⟩, ⟨"name", .string⟩, ⟨"n", .integer⟩, ⟨"tag", .byte⟩],
          by decide, by decide⟩⟩ := rfl
  have exchanged : onColumns .rightOuter rightSchema leftSchema ["y", "key"] ["x", "name"] =
      .ok ⟨.rightOuter, rightSchema, leftSchema, [0, 2], [1, 0], [1], [2],
        ⟨[⟨"y", .double⟩, ⟨"key", .string⟩, ⟨"tag", .byte⟩, ⟨"n", .integer⟩],
          by decide, by decide⟩⟩ := rfl
  have hleft : ∀ l ∈ left, l.length = leftSchema.size := by simp [left, leftSchema, Schema.size]
  have hright : ∀ r ∈ right, r.length = rightSchema.size := by
    simp [right, rightSchema, Schema.size]
  exact ⟨_, _, built, exchanged, execute_mirror built exchanged hleft hright⟩

end Join

end Tabular
