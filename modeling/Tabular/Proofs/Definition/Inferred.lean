import Tabular.Proofs.Definition.Column

namespace Tabular

/-- The integers that the integer columns of a type hold; other types are not limited. -/
def ColumnType.InRange : ColumnType → Int → Prop
  | .integer, n => -2 ^ 31 ≤ n ∧ n ≤ 2 ^ 31 - 1
  | .byte, n => -128 ≤ n ∧ n ≤ 127
  | _, _ => True

theorem Binary.compare?_canonical_right {f : Format} (x y : Binary f) :
    x.compare? y.canonical = x.compare? y := by
  rw [canonical]
  split
  · next hy => rw [compare?, compare?, nan_isNaN, hy, Bool.or_true, if_pos rfl, if_pos rfl]
  · rfl

theorem Binary.compare?_canonical_left {f : Format} (x y : Binary f) :
    x.canonical.compare? y = x.compare? y := by
  rw [canonical]
  split
  · next hx => rw [compare?, compare?, nan_isNaN, hx, Bool.true_or, if_pos rfl, if_pos rfl]
  · rfl

namespace Value

variable {type : ColumnType} {v : Value}

theorem toNode_of_whole? {n : Int64} (h : Operand.whole? v = some n) :
    v.toNode = .whole n.toInt := by
  cases v with
  | integer n =>
    cases h
    rw [toNode, Int32.toInt_toInt64]
  | long n =>
    cases h
    rfl
  | byte n =>
    cases h
    rw [toNode, Int8.toInt_toInt64]
  | _ => cases h

theorem ofNode_of_inRange (htype : type ∈ [ColumnType.integer, .long, .byte]) {n : Int64}
    (h : type.InRange n.toInt) :
    ∃ v, ofNode type (.whole n.toInt) = .ok v ∧ Operand.whole? v = some n := by
  cases type with
  | integer =>
    have hrange : -2 ^ 31 ≤ n.toInt ∧ n.toInt ≤ 2 ^ 31 - 1 := h
    have hn : n.toInt32.toInt64 = n := by
      rw [← Int64.toInt_inj, Int32.toInt_toInt64, Int64.toInt_toInt32]
      exact Int.bmod_eq_of_le (by omega) (by omega)
    exact ⟨.integer n.toInt32, (ofNode_integer n).trans (if_pos hrange), congrArg some hn⟩
  | byte =>
    have hrange : -128 ≤ n.toInt ∧ n.toInt ≤ 127 := h
    have hn : n.toInt8.toInt64 = n := by
      rw [← Int64.toInt_inj, Int8.toInt_toInt64, Int64.toInt_toInt8]
      exact Int.bmod_eq_of_le (by omega) (by omega)
    exact ⟨.byte n.toInt8, (ofNode_byte n).trans (if_pos hrange), congrArg some hn⟩
  | long => exact ⟨.long n, ofNode_long n, rfl⟩
  | _ => exact absurd htype (by decide)

theorem ofNode_of_not_inRange {n : Int64} (h : ¬type.InRange n.toInt) :
    ofNode type (.whole n.toInt) = .error (.numericOverflow (.whole n.toInt) type) := by
  cases type with
  | integer => exact (ofNode_integer n).trans (if_neg h)
  | byte => exact (ofNode_byte n).trans (if_neg h)
  | _ => exact absurd trivial h

theorem ofNode_of_real? {x : Double} (h : Operand.real? v = some x) :
    ofNode .double v.toNode = .ok (.double x.canonical) := by
  have hwhole : ∀ n : Int64, Operand.whole? v = some n → x = .ofInt n.toInt →
      ofNode .double v.toNode = .ok (.double x.canonical) := by
    rintro n hn rfl
    have hnan : (Binary.ofInt n.toInt : Double).isNaN = false := Binary.ofRatio_isNaN _ _ _
    rw [toNode_of_whole? hn, Binary.canonical, hnan, if_neg Bool.false_ne_true]
    rfl
  cases v with
  | null | string | bytes | boolean => cases h
  | integer n =>
    cases h
    exact hwhole n.toInt64 rfl rfl
  | long n =>
    cases h
    exact hwhole n rfl rfl
  | byte n =>
    cases h
    exact hwhole n.toInt64 rfl rfl
  | float x =>
    cases h
    exact ofNode_double x.convert
  | double x =>
    cases h
    exact ofNode_double x

end Value

namespace Matcher

/-- A matcher with every NaN as the one that stands for all. -/
def canonical : Matcher → Matcher
  | real x => real x.canonical
  | realSet members => realSet (members.map Binary.canonical)
  | m => m

end Matcher

namespace Operand

variable {α : Type} {one : Value → Option α} {scalar : α → Matcher} {set : List α → Matcher}
  {type : ColumnType} {operand : Operand} {m : Matcher}

theorem exists_forall₂_again {values : List Value} {members : List α} {k : α → α}
    (h : List.Forall₂ (fun v a => one v = some a) values members)
    (hone : ∀ v ∈ values, ∀ a, one v = some a →
      ∃ w, Value.ofNode type v.toNode = .ok w ∧ one w = some (k a)) :
    ∃ again, List.Forall₂ (fun v w => Value.ofNode type v.toNode = .ok w) values again ∧
      List.Forall₂ (fun w a => one w = some a) again (members.map k) := by
  induction h with
  | nil => exact ⟨[], .nil, .nil⟩
  | @cons v a values members hv h ih =>
    obtain ⟨hhead, htail⟩ := List.forall_mem_cons.1 hone
    obtain ⟨w, hw, hread⟩ := hhead a hv
    obtain ⟨again, hagain, hreads⟩ := ih htail
    exact ⟨w :: again, .cons hw hagain, .cons hread hreads⟩

theorem Reads.reread (h : operand.Reads one scalar set m) (k : α → α)
    (hscalar : ∀ a, (scalar a).canonical = scalar (k a))
    (hset : ∀ members, (set members).canonical = set (members.map k))
    (hone : ∀ v ∈ operand.values, ∀ a, one v = some a →
      ∃ w, Value.ofNode type v.toNode = .ok w ∧ one w = some (k a)) :
    ∃ again, operand.reread type = .ok again ∧ again.isSet = operand.isSet ∧
      again.Reads one scalar set m.canonical := by
  cases h with
  | @scalar v a h =>
    obtain ⟨w, hw, hread⟩ := hone v (List.mem_singleton_self v) a h
    refine ⟨.scalar w, ?_, rfl, ?_⟩
    · rw [Operand.reread, hw]
      rfl
    · rw [hscalar]
      exact .scalar hread
  | @set values members h =>
    obtain ⟨again, hagain, hreads⟩ := exists_forall₂_again h hone
    refine ⟨.set again, ?_, rfl, ?_⟩
    · rw [Operand.reread, mapM_eq_ok.2 hagain]
      rfl
    · rw [hset]
      exact .set hreads

/-- An operand that fits its type is read again, as what it was but for the kind of its NaN values.
-/
theorem exists_reread (h : operand.matcher type = .ok m) (hfloat : type ≠ .float)
    (fits : ∀ v ∈ operand.values, ∀ n, whole? v = some n → type.InRange n.toInt) :
    ∃ again, operand.reread type = .ok again ∧ again.isSet = operand.isSet ∧
      again.matcher type = .ok m.canonical := by
  cases type with
  | bytes => cases h
  | float => exact absurd rfl hfloat
  | integer | long | byte =>
    refine ((read_eq_ok.1 h).reread id (fun _ => rfl) (fun ns => congrArg _ (List.map_id ns).symm)
      ?_).imp fun again ⟨hagain, hset, hreads⟩ => ⟨hagain, hset, read_eq_ok.2 hreads⟩
    intro v hv n hn
    rw [Value.toNode_of_whole? hn]
    exact Value.ofNode_of_inRange (by decide) (fits v hv n hn)
  | double =>
    refine ((read_eq_ok.1 h).reread Binary.canonical (fun _ => rfl) (fun _ => rfl)
      ?_).imp fun again ⟨hagain, hset, hreads⟩ => ⟨hagain, hset, read_eq_ok.2 hreads⟩
    exact fun v _ x hx => ⟨_, Value.ofNode_of_real? hx, rfl⟩
  | string | categorical =>
    refine ((read_eq_ok.1 h).reread id (fun _ => rfl) (fun ss => congrArg _ (List.map_id ss).symm)
      ?_).imp fun again ⟨hagain, hset, hreads⟩ => ⟨hagain, hset, read_eq_ok.2 hreads⟩
    intro v _ s hs
    cases v with
    | string s => exact ⟨.string s, rfl, hs⟩
    | _ => cases hs
  | boolean =>
    refine ((read_eq_ok.1 h).reread id (fun _ => rfl) (fun bs => congrArg _ (List.map_id bs).symm)
      ?_).imp fun again ⟨hagain, hset, hreads⟩ => ⟨hagain, hset, read_eq_ok.2 hreads⟩
    intro v _ b hb
    cases v with
    | boolean b => exact ⟨.boolean b, rfl, hb⟩
    | _ => cases hb

end Operand

namespace ColumnCondition

theorem evaluate_canonical (c : ColumnCondition) (operand : Operand) (v : Value) :
    evaluate { c with operand := operand, matcher := c.matcher.canonical } v = c.evaluate v := by
  obtain ⟨column, mode, op, operand', type, matcher⟩ := c
  cases matcher with
  | real x => simp only [evaluate, Matcher.canonical, Binary.compare?_canonical_right]
  | realSet members =>
    have hmember : ∀ x y : Double, (x.canonical == y) = (x == y) := fun x y =>
      congrArg (· == some Ordering.eq) (x.compare?_canonical_left y)
    simp only [evaluate, Matcher.canonical, List.any_map, Function.comp_def, hmember]
    rfl
  | _ => rfl

theorem operandType_ne_float {column : String} {mode : SequenceMode} {op : Operator}
    {operand : Operand} {c : ColumnCondition} (h : infer column mode op operand = .ok c) :
    c.operandType ≠ .float := by
  obtain ⟨type, htype, htyped⟩ := bind_eq_ok.1 h
  obtain ⟨rfl, rfl⟩ := operand_of_typed htyped
  have hnull := Operand.isNull_of_matcher (isBuilt_iff.1 (isBuilt_of_typed htyped)).2
  rw [Operand.inferType] at htype
  split at htype
  · cases htype
  · next v rest hvalues =>
    intro hfloat
    rw [hfloat] at htype
    dsimp only at htype
    split at htype
    · cases htype
    · next hany =>
      have hv := hnull v (hvalues ▸ List.mem_cons_self)
      cases v with
      | null t => cases hv
      | float x => exact hany rfl
      | _ => cases htype

theorem ofDefinition_toDefinition_eq (c : ColumnCondition) :
    ofDefinition c.toDefinition = c.form.build := by
  rw [ofDefinition, c.ofParts?_toDefinition]

end ColumnCondition

theorem ColumnType.mem_of_not_inRange {type : ColumnType} {n : Int} (h : ¬type.InRange n) :
    type ∈ [ColumnType.integer, .long, .byte] := by
  cases type with
  | integer | byte => decide
  | _ => exact absurd trivial h

theorem Operand.exists_whole? {operand : Operand} {type : ColumnType} {m : Matcher}
    (h : operand.matcher type = .ok m) (htype : type ∈ [ColumnType.integer, .long, .byte])
    {v : Value} (hv : v ∈ operand.values) : ∃ n, whole? v = some n := by
  cases type with
  | integer | long | byte => exact (read_eq_ok.1 h).exists_of_mem hv
  | _ => exact absurd htype (by decide)

/-- An operand with an integer out of the range of its type is not read again, because of an integer
that is. -/
theorem Operand.reread_of_not_inRange {operand : Operand} {type : ColumnType} {m : Matcher}
    (h : operand.matcher type = .ok m) {v : Value} (hv : v ∈ operand.values) {n : Int64}
    (hn : whole? v = some n) (hrange : ¬type.InRange n.toInt) :
    ∃ w ∈ operand.values, ∃ k, whole? w = some k ∧ ¬type.InRange k.toInt ∧
      operand.reread type = .error (.numericOverflow (.whole k.toInt) type) := by
  have refused : Value.ofNode type v.toNode = .error (.numericOverflow (.whole n.toInt) type) := by
    rw [Value.toNode_of_whole? hn]
    exact Value.ofNode_of_not_inRange hrange
  cases operand with
  | scalar u =>
    cases List.mem_singleton.1 hv
    refine ⟨v, hv, n, hn, hrange, ?_⟩
    rw [reread, refused]
    rfl
  | set values =>
    cases hvalues : values.mapM fun v => Value.ofNode type v.toNode with
    | ok again =>
      obtain ⟨w, -, hw⟩ := exists_of_forall₂ (mapM_eq_ok.1 hvalues) hv
      cases hw.symm.trans refused
    | error e =>
      obtain ⟨w, hw, he⟩ := exists_of_mapM_error hvalues
      have htype := ColumnType.mem_of_not_inRange hrange
      obtain ⟨k, hk⟩ := exists_whole? h htype hw
      rw [Value.toNode_of_whole? hk] at he
      have hkrange : ¬type.InRange k.toInt := by
        intro hin
        obtain ⟨u, hu, -⟩ := Value.ofNode_of_inRange htype hin
        cases hu.symm.trans he
      rw [Value.ofNode_of_not_inRange hkrange] at he
      cases he
      refine ⟨w, hw, k, hk, hkrange, ?_⟩
      rw [reread, hvalues]
      rfl

namespace ColumnCondition

/-- A condition with a type taken from its values is restored with the same answers, unless an
integer is out of the range of that type. -/
theorem ofDefinition_of_infer (column : String) (mode : SequenceMode) (op : Operator)
    (operand : Operand) (c : ColumnCondition) (h : infer column mode op operand = .ok c) :
    ((∀ v ∈ operand.values, ∀ n, Operand.whole? v = some n → c.operandType.InRange n.toInt) →
      ∃ r, ofDefinition c.toDefinition = .ok r ∧ ∀ v, r.evaluate v = c.evaluate v) ∧
    ∀ v ∈ operand.values, ∀ n, Operand.whole? v = some n → ¬c.operandType.InRange n.toInt →
      ∃ w ∈ operand.values, ∃ k, Operand.whole? w = some k ∧ ¬c.operandType.InRange k.toInt ∧
        ofDefinition c.toDefinition = .error (.numericOverflow (.whole k.toInt) c.operandType) := by
  obtain ⟨type, -, htyped⟩ := bind_eq_ok.1 h
  have hfloat := operandType_ne_float h
  have hbuilt := isBuilt_of_typed htyped
  obtain ⟨rfl, rfl⟩ := operand_of_typed htyped
  obtain ⟨hfault, hmatcher⟩ := isBuilt_iff.1 hbuilt
  have hnull := Operand.isNull_of_matcher hmatcher
  rw [ofDefinition_toDefinition_eq, build_form hnull]
  constructor
  · intro fits
    obtain ⟨again, hagain, hset, hread⟩ := Operand.exists_reread hmatcher hfloat fits
    refine ⟨{ c with operand := again, matcher := c.matcher.canonical }, ?_,
      c.evaluate_canonical again⟩
    rw [hagain]
    have hfault' : operatorFault c.op again c.operandType = none := by
      rw [← hfault, operatorFault, operatorFault, hset]
    have hrestored : IsBuilt { c with operand := again, matcher := c.matcher.canonical } :=
      isBuilt_iff.2 ⟨hfault', hread⟩
    exact hrestored
  · intro v hv n hn hrange
    obtain ⟨w, hw, k, hk, hkrange, hreread⟩ :=
      Operand.reread_of_not_inRange hmatcher hv hn hrange
    refine ⟨w, hw, k, hk, hkrange, ?_⟩
    rw [hreread]
    rfl

theorem ofDefinition_of_infer_of_narrow :
    ∃ c r, infer "x" .or .notInSet (.set [.byte 1, .integer 100, .long (-128)]) = .ok c ∧
      c.operandType = .byte ∧ ofDefinition c.toDefinition = .ok r ∧
      ∀ v, r.evaluate v = c.evaluate v := by
  have h : infer "x" .or .notInSet (.set [.byte 1, .integer 100, .long (-128)]) = .ok _ := rfl
  have fits : ∀ v ∈ [Value.byte 1, .integer 100, .long (-128)], ∀ n, Operand.whole? v = some n →
      ColumnType.byte.InRange n.toInt := by
    simp only [List.forall_mem_cons, Operand.whole?, Option.some.injEq, forall_eq']
    exact ⟨⟨by decide, by decide⟩, ⟨by decide, by decide⟩, ⟨by decide, by decide⟩,
      fun _ h => absurd h List.not_mem_nil⟩
  obtain ⟨r, hr, hanswers⟩ := (ofDefinition_of_infer _ _ _ _ _ h).1 fits
  exact ⟨_, r, h, rfl, hr, hanswers⟩

/-- A set with an integer too large for the type of the first one is accepted, but its definition is
refused. -/
theorem not_ofDefinition_of_wide :
    ∃ c, infer "x" .or .inSet (.set [.byte 1, .integer 300]) = .ok c ∧
      c.evaluate (.integer 300) = .ok true ∧
      ofDefinition c.toDefinition = .error (.numericOverflow (.whole 300) .byte) ∧
      ¬∃ r, ofDefinition c.toDefinition = .ok r := by
  have refused : ofDefinition (toDefinition ⟨"x", .or, .inSet, .set [.byte 1, .integer 300], .byte,
      .wholeSet [1, 300]⟩) = .error (.numericOverflow (.whole 300) .byte) := rfl
  refine ⟨_, rfl, rfl, refused, ?_⟩
  rintro ⟨r, hr⟩
  cases hr.symm.trans refused

end ColumnCondition

end Tabular
