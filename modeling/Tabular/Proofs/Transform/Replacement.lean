import Tabular.Proofs.Schema
import Tabular.Proofs.Transform.Selection

namespace Tabular

/-- A row that differs from another at most at a position, where it has a given value. -/
structure Row.ReplacedAt (row new : Row) (position : Nat) (v : Value) : Prop where
  length : new.length = row.length
  value : new[position]? = some v
  others : ∀ j ≠ position, new[j]? = row[j]?

theorem Row.replacedAt_set {row : Row} {i : Nat} (v : Value) (hi : i < row.length) :
    row.ReplacedAt (row.set i v) i v where
  length := List.length_set
  value := List.getElem?_set_self hi
  others _ hj := List.getElem?_set_ne hj.symm

namespace BoundCondition

variable {b : BoundCondition} {i : Nat} {v : Value} {row new again : Row}

/-- A row with a new value at a position if the condition holds on it. -/
def replaceRow (b : BoundCondition) (i : Nat) (v : Value) (row : Row) : Except Error Row := do
  if ← b.evaluateRow row then Row.replaceAt row i v else return row

theorem replaceRow_eq_ok : b.replaceRow i v row = .ok new ↔
    (b.evaluateRow row = .ok false ∧ new = row) ∨
      (b.evaluateRow row = .ok true ∧ i < row.length ∧ new = row.set i v) := by
  rw [replaceRow]
  cases b.evaluateRow row with
  | error e => simp [bind, Except.bind]
  | ok answer =>
    cases answer with
    | false => simp [bind, Except.bind, pure, Except.pure, eq_comm]
    | true =>
      by_cases hi : i < row.length <;>
        simp [bind, Except.bind, Row.replaceAt, hi, eq_comm]

/-- Whatever the condition says of the new row, it has the value already. -/
theorem replaceRow_again (h : b.replaceRow i v row = .ok new)
    (hagain : b.replaceRow i v new = .ok again) : again = new := by
  rcases replaceRow_eq_ok.1 hagain with ⟨-, rfl⟩ | ⟨htrue, -, rfl⟩
  · rfl
  · rcases replaceRow_eq_ok.1 h with ⟨hfalse, rfl⟩ | ⟨-, -, rfl⟩
    · cases htrue.symm.trans hfalse
    · exact List.set_set _

theorem exists_replaceRow_iff : (∃ new, b.replaceRow i v row = .ok new) ↔
    b.evaluateRow row = .ok false ∨ (b.evaluateRow row = .ok true ∧ i < row.length) := by
  simp only [replaceRow_eq_ok]
  constructor
  · rintro ⟨new, ⟨hfalse, -⟩ | ⟨htrue, hi, -⟩⟩
    · exact .inl hfalse
    · exact .inr ⟨htrue, hi⟩
  · rintro (hfalse | ⟨htrue, hi⟩)
    · exact ⟨row, .inl ⟨hfalse, rfl⟩⟩
    · exact ⟨row.set i v, .inr ⟨htrue, hi, rfl⟩⟩

theorem exists_replaceRow (hi : i < row.length) :
    (∃ new, b.replaceRow i v row = .ok new) ↔ ∃ answer, b.evaluateRow row = .ok answer := by
  rw [exists_replaceRow_iff, Bool.exists_bool, and_iff_left hi]

theorem mapM_replaceRow_again {rows made remade : List Row}
    (h : rows.mapM (b.replaceRow i v) = .ok made)
    (hagain : made.mapM (b.replaceRow i v) = .ok remade) : remade = made := by
  rw [mapM_eq_ok] at h hagain
  induction h generalizing remade with
  | nil =>
    cases hagain
    rfl
  | cons hrow _ ih =>
    cases hagain with
    | cons hnew hrest => rw [replaceRow_again hrow hnew, ih hrest]

end BoundCondition

namespace Dataset

variable {d out : Dataset} {column : String} {v : Value} {c : Condition} {i : Nat} {f : Field}

theorem replaceWhere_eq_ok : d.replaceWhere column v c = .ok out ↔
    ∃ i f b rows, d.schema.requireColumn column = .ok (i, f) ∧ f.type.accepts v = true ∧
      c.bind d.schema = .ok b ∧ d.rows.mapM (b.replaceRow i v) = .ok rows ∧
      { d with rows := rows } = out := by
  rw [replaceWhere]
  constructor
  · intro h
    obtain ⟨⟨i, f⟩, hcolumn, h⟩ := bind_eq_ok.1 h
    obtain ⟨haccepts, h⟩ := guard_eq_ok.1 h
    obtain ⟨b, hb, h⟩ := bind_eq_ok.1 h
    obtain ⟨rows, hrows, h⟩ := bind_pure_eq_ok.1 h
    exact ⟨i, f, b, rows, hcolumn, by simpa using haccepts, hb, hrows, h⟩
  · rintro ⟨i, f, b, rows, hcolumn, haccepts, hb, hrows, rfl⟩
    refine bind_eq_ok.2 ⟨(i, f), hcolumn, guard_eq_ok.2 ⟨by simp [haccepts], ?_⟩⟩
    exact bind_eq_ok.2 ⟨b, hb, bind_pure_eq_ok.2 ⟨rows, hrows, rfl⟩⟩

theorem exists_replaceWhere (hcolumn : d.schema.requireColumn column = .ok (i, f))
    (haccepts : f.type.accepts v = true) (hi : ∀ row ∈ d.rows, i < row.length) :
    (∃ out, d.replaceWhere column v c = .ok out) ↔
      ∃ b, c.bind d.schema = .ok b ∧ b.AnswersAll d.rows := by
  constructor
  · rintro ⟨out, hout⟩
    obtain ⟨j, g, b, rows, hj, -, hb, hrows, rfl⟩ := replaceWhere_eq_ok.1 hout
    cases hcolumn.symm.trans hj
    refine ⟨b, hb, fun row hrow => ?_⟩
    have hreplaced := exists_mapM_eq_ok.1 ⟨rows, hrows⟩ row hrow
    exact (BoundCondition.exists_replaceRow (hi row hrow)).1 hreplaced
  · rintro ⟨b, hb, hanswers⟩
    obtain ⟨rows, hrows⟩ := exists_mapM_eq_ok.2 fun row hrow =>
      (BoundCondition.exists_replaceRow (v := v) (hi row hrow)).2 (hanswers row hrow)
    exact ⟨_, replaceWhere_eq_ok.2 ⟨i, f, b, rows, hcolumn, haccepts, hb, hrows, rfl⟩⟩

/-- A replacement succeeds if its condition answers every row, changes only the cells of its column
where that holds, and fails or changes nothing when repeated. -/
theorem replaceWhere_frame (d : Dataset) (column : String) (v : Value) (c : Condition) {i : Nat}
    {f : Field} (hwidth : ∀ row ∈ d.rows, row.length = d.schema.size)
    (hcolumn : d.schema.requireColumn column = .ok (i, f)) (haccepts : f.type.accepts v = true) :
    ((∃ out, d.replaceWhere column v c = .ok out) ↔
      ∃ b, c.bind d.schema = .ok b ∧ b.AnswersAll d.rows) ∧
    ∀ out, d.replaceWhere column v c = .ok out →
      out.schema = d.schema ∧
      (∃ b, c.bind d.schema = .ok b ∧ List.Forall₂ (fun row new =>
        (b.evaluateRow row = .ok false ∧ new = row) ∨
          (b.evaluateRow row = .ok true ∧ row.ReplacedAt new i v)) d.rows out.rows) ∧
      ((∃ e, out.replaceWhere column v c = .error e) ∨
        out.replaceWhere column v c = .ok out) := by
  constructor
  · have hi := Schema.indexOf?_lt (Schema.requireColumn_eq_ok.1 hcolumn).1
    exact exists_replaceWhere hcolumn haccepts fun row hrow => hwidth row hrow ▸ hi
  · intro out hout
    obtain ⟨j, g, b, rows, hj, -, hb, hrows, rfl⟩ := replaceWhere_eq_ok.1 hout
    cases hcolumn.symm.trans hj
    refine ⟨rfl, ⟨b, hb, ?_⟩, ?_⟩
    · refine (mapM_eq_ok.1 hrows).imp fun row new hnew => ?_
      rcases BoundCondition.replaceRow_eq_ok.1 hnew with hfalse | ⟨htrue, hi, rfl⟩
      · exact .inl hfalse
      · exact .inr ⟨htrue, Row.replacedAt_set v hi⟩
    · cases hagain : replaceWhere { d with rows := rows } column v c with
      | error e => exact .inl ⟨e, rfl⟩
      | ok again =>
        obtain ⟨j, g, b', remade, hj, -, hb', hremade, rfl⟩ := replaceWhere_eq_ok.1 hagain
        cases hcolumn.symm.trans hj
        cases hb.symm.trans hb'
        rw [BoundCondition.mapM_replaceRow_again hrows hremade]
        exact .inr rfl

theorem replaceWhere_frame_of_limit :
    let schema : Schema := ⟨[⟨"name", .string⟩, ⟨"age", .byte⟩], by decide, by decide⟩
    let d : Dataset := ⟨schema, [[.string "x", .byte 30], [.null .string, .byte 90]]⟩
    let capped : Dataset := ⟨schema, [[.string "x", .byte 30], [.null .string, .byte 65]]⟩
    ∃ above, ColumnCondition.long "age" .greaterThan 65 = .ok above ∧
      d.replaceWhere "age" (.byte 65) (.column above) = .ok capped ∧
      capped.replaceWhere "age" (.byte 65) (.column above) = .ok capped := by
  intro schema d capped
  let above : ColumnCondition :=
    ⟨"age", .or, .greaterThan, .scalar (.long 65), .long, .whole 65⟩
  obtain ⟨-, hframe⟩ := replaceWhere_frame d "age" (.byte 65) (.column above) (i := 1)
    (f := ⟨"age", .byte⟩) (by decide) rfl rfl
  have hout : d.replaceWhere "age" (.byte 65) (.column above) = .ok capped := rfl
  obtain ⟨-, -, hagain⟩ := hframe capped hout
  refine ⟨above, rfl, hout, ?_⟩
  rcases hagain with ⟨e, he⟩ | hagain
  · cases he
  · exact hagain

end Dataset

end Tabular
