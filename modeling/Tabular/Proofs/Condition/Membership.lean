import Tabular.Proofs.Binary.Exact
import Tabular.Proofs.Condition.Column
import Tabular.Proofs.Condition.Evaluation

namespace Tabular

theorem any_eq_of_mem_iff {α : Type} {as bs : List α} {test : α → Bool} (h : ∀ a, a ∈ as ↔ a ∈ bs) :
    as.any test = bs.any test := by
  rw [Bool.eq_iff_iff, List.any_eq_true, List.any_eq_true]
  exact exists_congr fun a => and_congr_left' (h a)

namespace Operand

variable {α : Type} {type : ColumnType} {one : Value → Option α} {scalar : α → Matcher}
  {set : List α → Matcher}

theorem exists_matcher_map {γ : Type} {value : γ → Value}
    (hread : ∀ operand, matcher type operand = operand.read type one scalar set)
    (h : ∀ a, ∃ b, one (value a) = some b) (as : List γ) :
    ∃ m, matcher type (.set (as.map value)) = .ok m := by
  choose f hf using h
  refine ⟨set (as.map f), (hread _).trans (read_eq_ok.2 (.set ?_))⟩
  rw [List.forall₂_map_left_iff, List.forall₂_map_right_iff, List.forall₂_same]
  exact fun a _ => hf a

theorem any_of_forall₂ {values : List Value} {as : List α} {test : α → Bool}
    (h : List.Forall₂ (fun w a => one w = some a) values as) :
    as.any test = values.any fun w => (one w).any test := by
  induction h with
  | nil => rfl
  | cons ha _ ih => rw [List.any_cons, List.any_cons, ha, ih, Option.any_some]

end Operand

theorem Operator.holds_equal_compare {α : Type} [Ord α] [Std.LawfulEqOrd α] [BEq α] [LawfulBEq α]
    (a b : α) : Operator.equal.holds (some (compare a b)) = .ok (a == b) := by
  rw [holds, Except.ok.injEq, Bool.eq_iff_iff, beq_iff_eq, beq_iff_eq, Option.some_inj]
  exact Std.LawfulEqOrd.compare_eq_iff_eq

namespace ColumnCondition

variable {column : String} {mode : SequenceMode} {type : ColumnType} {c : ColumnCondition}
  {v : Value}

/-- `equals` answers whether the tested value is equal to an operand, alone or as a member of a set,
or it is the error of converting that value. -/
structure Decides (column : String) (mode : SequenceMode) (type : ColumnType) (v : Value)
    (equals : Except Error (Value → Bool)) : Prop where
  equal : ∀ w c, typed column mode .equal (.scalar w) type = .ok c →
    c.evaluate v = equals.map (· w)
  inSet : ∀ values c, typed column mode .inSet (.set values) type = .ok c →
    c.evaluate v = equals.map fun test => values.any test

/-- A value is tested for equality in one way, whether an operand is read alone or in a set. -/
theorem decides_of_read {α β : Type} {one : Value → Option α} {scalar : α → Matcher}
    {set : List α → Matcher} (x : Except Error β) (test : β → α → Bool)
    (hread : ∀ operand, Operand.matcher type operand = operand.read type one scalar set)
    (hscalar : ∀ w a,
      evaluate ⟨column, mode, .equal, .scalar w, type, scalar a⟩ v = x.map (test · a))
    (hset : ∀ values as,
      evaluate ⟨column, mode, .inSet, .set values, type, set as⟩ v =
        x.map fun b => as.any (test b)) :
    Decides column mode type v (x.map fun b w => (one w).any (test b)) where
  equal w c hc := by
    obtain ⟨-, m, hm, rfl⟩ := typed_eq_ok.1 hc
    rw [hread] at hm
    obtain ⟨ha⟩ := Operand.read_eq_ok.1 hm
    rw [hscalar, map_map]
    simp only [ha, Option.any_some]
  inSet values c hc := by
    obtain ⟨-, m, hm, rfl⟩ := typed_eq_ok.1 hc
    rw [hread] at hm
    obtain ⟨_⟩ | ⟨hvalues⟩ := Operand.read_eq_ok.1 hm
    rw [hset, map_map]
    simp only [Operand.any_of_forall₂ hvalues]

theorem exists_decides (column : String) (mode : SequenceMode) (type : ColumnType) (v : Value) :
    ∃ equals, Decides column mode type v equals := by
  let sample : ColumnCondition := ⟨column, mode, .equal, .set [], type, .textSet []⟩
  rcases Operand.matcher_eq_read type with hread | hread | hread | hread | hread
  · refine ⟨.error .untypedSet, ?_, ?_⟩
    all_goals
      intro _ c hc
      obtain ⟨-, m, hm, -⟩ := typed_eq_ok.1 hc
      rw [hread] at hm
      cases hm
  · refine ⟨_, decides_of_read v.toInt64 (· == ·) hread ?_ ?_⟩
    · intro w n
      refine bind_eq_map fun k => (Operator.holds_equal_compare k.toInt n.toInt).trans ?_
      rw [Except.ok.injEq, Bool.eq_iff_iff, beq_iff_eq, beq_iff_eq, Int64.toInt_inj]
    · exact fun values ns => bind_eq_map fun k => congrArg Except.ok List.contains_eq_any_beq
  · refine ⟨_, decides_of_read v.toDouble (· == ·) hread ?_ ?_⟩
    · exact fun w x => bind_eq_map fun y => rfl
    · intro values xs
      refine bind_eq_map fun y => congrArg Except.ok ?_
      simp only [Binary.beq_comm y]
      rfl
  · refine ⟨_, decides_of_read (sample.textOf v) (· == ·) hread ?_ ?_⟩
    · exact fun w s => bind_eq_map fun t => Operator.holds_equal_compare t s
    · exact fun values ss => bind_eq_map fun t => congrArg Except.ok List.contains_eq_any_beq
  · refine ⟨_, decides_of_read (sample.booleanOf v) (· == ·) hread ?_ ?_⟩
    · exact fun w b => bind_eq_map fun a => Operator.holds_equal_compare a b
    · exact fun values bs => bind_eq_map fun a => congrArg Except.ok List.contains_eq_any_beq

/-- The constructors for sets of members of one type, each with the one for a single member. -/
inductive IsSetOf : {α : Type} → (String → Operator → List α → Except Error ColumnCondition) →
    (String → Operator → α → Except Error ColumnCondition) → Prop where
  | integer : IsSetOf integerSet integer
  | long : IsSetOf longSet long
  | float : IsSetOf floatSet float
  | double : IsSetOf doubleSet double
  | string : IsSetOf stringSet string
  | categorical : IsSetOf categoricalSet categorical

/-- A constructor of sets and its constructor of single operands write every member as a value of
one type, and such values are read alone and in sets. -/
structure Writes {α : Type} (ofSet : String → Operator → List α → Except Error ColumnCondition)
    (ofMember : String → Operator → α → Except Error ColumnCondition) (type : ColumnType)
    (value : α → Value) : Prop where
  set (column : String) (op : Operator) (members : List α) :
    ofSet column op members = typed column .or op (.set (members.map value)) type
  member (column : String) (op : Operator) (a : α) :
    ofMember column op a = typed column .or op (.scalar (value a)) type
  readSet (members : List α) : ∃ m, (Operand.set (members.map value)).matcher type = .ok m
  readMember (a : α) : ∃ m, (Operand.scalar (value a)).matcher type = .ok m

section Sets

variable {α : Type} {ofSet : String → Operator → List α → Except Error ColumnCondition}
  {ofMember : String → Operator → α → Except Error ColumnCondition} {value : α → Value}
  {members : List α} {a : α} {equals : Except Error (Value → Bool)}

theorem IsSetOf.exists_writes (h : IsSetOf ofSet ofMember) :
    ∃ type value, Writes ofSet ofMember type value := by
  cases h with
  | integer =>
    exact ⟨.integer, .integer, fun _ _ _ => rfl, fun _ _ _ => rfl,
      Operand.exists_matcher_map (fun _ => rfl) fun _ => ⟨_, rfl⟩, fun _ => ⟨_, rfl⟩⟩
  | long =>
    exact ⟨.long, .long, fun _ _ _ => rfl, fun _ _ _ => rfl,
      Operand.exists_matcher_map (fun _ => rfl) fun _ => ⟨_, rfl⟩, fun _ => ⟨_, rfl⟩⟩
  | float =>
    exact ⟨.float, .float, fun _ _ _ => rfl, fun _ _ _ => rfl,
      Operand.exists_matcher_map (fun _ => rfl) fun _ => ⟨_, rfl⟩, fun _ => ⟨_, rfl⟩⟩
  | double =>
    exact ⟨.double, .double, fun _ _ _ => rfl, fun _ _ _ => rfl,
      Operand.exists_matcher_map (fun _ => rfl) fun _ => ⟨_, rfl⟩, fun _ => ⟨_, rfl⟩⟩
  | string =>
    exact ⟨.string, .string, fun _ _ _ => rfl, fun _ _ _ => rfl,
      Operand.exists_matcher_map (fun _ => rfl) fun _ => ⟨_, rfl⟩, fun _ => ⟨_, rfl⟩⟩
  | categorical =>
    exact ⟨.categorical, .string, fun _ _ _ => rfl, fun _ _ _ => rfl,
      Operand.exists_matcher_map (fun _ => rfl) fun _ => ⟨_, rfl⟩, fun _ => ⟨_, rfl⟩⟩

theorem Writes.exists_inSet (h : Writes ofSet ofMember type value) (column : String)
    (members : List α) : ∃ c, ofSet column .inSet members = .ok c := by
  obtain ⟨m, hm⟩ := h.readSet members
  have hfault : operatorFault .inSet (.set (members.map value)) type = none := rfl
  exact ⟨_, (h.set column .inSet members).trans (typed_eq_ok.2 ⟨hfault, m, hm, rfl⟩)⟩

theorem Writes.exists_equal (h : Writes ofSet ofMember type value) (column : String) (a : α) :
    ∃ c, ofMember column .equal a = .ok c := by
  obtain ⟨m, hm⟩ := h.readMember a
  have hfault : operatorFault .equal (.scalar (value a)) type = none := rfl
  exact ⟨_, (h.member column .equal a).trans (typed_eq_ok.2 ⟨hfault, m, hm, rfl⟩)⟩

theorem Writes.evaluate_inSet (h : Writes ofSet ofMember type value)
    (hequals : Decides column .or type v equals) (hc : ofSet column .inSet members = .ok c) :
    c.evaluate v = equals.map fun test => members.any fun a => test (value a) := by
  rw [h.set] at hc
  rw [hequals.inSet _ c hc]
  simp only [List.any_map, Function.comp_def]

theorem Writes.evaluate_equal (h : Writes ofSet ofMember type value)
    (hequals : Decides column .or type v equals) (hc : ofMember column .equal a = .ok c) :
    c.evaluate v = equals.map fun test => test (value a) := by
  rw [h.member] at hc
  exact hequals.equal _ c hc

/-- A condition on a set that is not empty is the disjunction of the equalities with its members,
errors included. -/
theorem inSet_eq_or_equal (h : IsSetOf ofSet ofMember) (column : String) (hne : members ≠ []) :
    ∃ c cs, ofSet column .inSet members = .ok c ∧ members.mapM (ofMember column .equal) = .ok cs ∧
      (∀ v, c.evaluate v = cs.anyM (·.evaluate v)) ∧
      (∀ row i, BoundCondition.evaluateRow row (.column c i) =
        BoundCondition.evaluateRow row (.or (cs.map (.column · i)))) ∧
      ∀ members', (∀ a, a ∈ members' ↔ a ∈ members) →
        ∃ c', ofSet column .inSet members' = .ok c' ∧ ∀ v, c'.evaluate v = c.evaluate v := by
  obtain ⟨type, value, hwrites⟩ := h.exists_writes
  obtain ⟨c, hc⟩ := hwrites.exists_inSet column members
  obtain ⟨cs, hcs⟩ := exists_mapM_eq_ok.2 fun a (_ : a ∈ members) => hwrites.exists_equal column a
  have hne' : cs ≠ [] := by
    rintro rfl
    exact hne (List.forall₂_nil_right_iff.1 (mapM_eq_ok.1 hcs))
  have hevaluate (v : Value) : c.evaluate v = cs.anyM (·.evaluate v) := by
    obtain ⟨equals, hequals⟩ := exists_decides column .or type v
    rw [hwrites.evaluate_inSet hequals hc]
    refine (anyM_eq_any_outcome ((mapM_eq_ok.1 hcs).imp fun a c hc => ?_) hne').symm
    exact hwrites.evaluate_equal hequals hc
  refine ⟨c, cs, hc, hcs, hevaluate, ?_, ?_⟩
  · intro row i
    rw [BoundCondition.evaluateRow, (BoundCondition.isEvaluation_row row).or, anyM_map]
    simp only [BoundCondition.evaluateRow]
    cases hrow : row[i]? with
    | some v =>
      simp only [BoundCondition.cell, hrow]
      exact hevaluate v
    | none =>
      have hcell {c : ColumnCondition} (hcolumn : c.column = column) : BoundCondition.cell c i row =
          .error (.schema (.conditionColumn row.length i column)) := by
        rw [BoundCondition.cell, hrow, hcolumn]
      rw [hcell (column_of_typed ((hwrites.set column .inSet members).symm.trans hc))]
      refine (anyM_eq_error (fun c hc => ?_) hne').symm
      obtain ⟨a, -, hc⟩ := exists_of_mapM hcs c hc
      exact hcell (column_of_typed ((hwrites.member column .equal a).symm.trans hc))
  · intro members' hmem
    obtain ⟨c', hc'⟩ := hwrites.exists_inSet column members'
    refine ⟨c', hc', fun v => ?_⟩
    obtain ⟨equals, hequals⟩ := exists_decides column .or type v
    rw [hwrites.evaluate_inSet hequals hc, hwrites.evaluate_inSet hequals hc']
    simp only [any_eq_of_mem_iff hmem]

theorem inSet_eq_or_equal_of_nan :
    let members : List Double := [.nan, .ofInt 1, .zero, .nan]
    ∃ c cs, doubleSet "x" .inSet members = .ok c ∧ members.mapM (double "x" .equal) = .ok cs ∧
      cs.anyM (·.evaluate (.double Binary.zero.neg)) = .ok true ∧
      cs.anyM (·.evaluate (.double .nan)) = .ok false ∧
      cs.anyM (·.evaluate (.string "1")) = .error (.notNumeric (.string "1")) := by
  intro members
  have hset : doubleSet "x" .inSet members = .ok ⟨"x", .or, .inSet, .set (members.map .double),
      .double, .realSet members⟩ := rfl
  have hne : members ≠ [] := List.cons_ne_nil _ _
  obtain ⟨c, cs, hc, hcs, hevaluate, -⟩ := inSet_eq_or_equal .double "x" hne
  cases hset.symm.trans hc
  refine ⟨_, cs, hset, hcs, ?_, ?_, ?_⟩
  · exact (hevaluate _).symm.trans (by decide +kernel)
  · exact (hevaluate _).symm.trans (by decide +kernel)
  · exact (hevaluate _).symm

end Sets

end ColumnCondition

end Tabular
