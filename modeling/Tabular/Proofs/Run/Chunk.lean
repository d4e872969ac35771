import Mathlib.Algebra.GroupWithZero.Nat
import Mathlib.Data.List.Basic
import Tabular.Proofs.Except
import Tabular.Run.Chunk
import Tabular.Transform.Filter
import Tabular.Transform.Map

namespace Tabular

namespace Chunk

/-- The number of chunks of some size that `n` rows are cut into. -/
def number (n size : Nat) : Nat := (n + (size - 1)) / size

/-- The chunk with a number. -/
def ofNumber (n size i : Nat) : Chunk := ⟨i * size, min (i * size + size) n⟩

theorem ranges_eq (n size : Nat) :
    ranges n size = (List.range (number n size)).map (ofNumber n size) :=
  rfl

theorem lt_number {n size i : Nat} (hsize : 0 < size) : i < number n size ↔ i * size < n := by
  rw [number, Nat.lt_iff_add_one_le, Nat.le_div_iff_mul_le hsize, Nat.succ_mul]
  omega

theorem number_le {n size : Nat} (hsize : 0 < size) : number n size ≤ n := by
  apply Nat.le_of_not_lt
  intro h
  have hlt := (lt_number hsize).1 h
  exact absurd (Nat.le_mul_of_pos_right n hsize) (Nat.not_le.2 hlt)

theorem le_number_mul {n size : Nat} (hsize : 0 < size) : n ≤ number n size * size := by
  apply Nat.le_of_not_lt
  intro h
  exact absurd ((lt_number hsize).2 h) (Nat.lt_irrefl _)

theorem ofNumber_size (n size i : Nat) : (ofNumber n size i).size = min size (n - i * size) := by
  change min (i * size + size) n - i * size = _
  omega

theorem ofNumber_rows (all : List Row) (size i : Nat) :
    (ofNumber all.length size i).rows all = (all.drop (i * size)).take size := by
  rw [rows, ofNumber_size]
  change (all.drop (i * size)).take _ = _
  rw [List.take_eq_take_iff, List.length_drop]
  omega

theorem flatten_firstRanges (all : List Row) (size count : Nat) :
    ((List.range count).map fun i => (ofNumber all.length size i).rows all).flatten =
      all.take (count * size) := by
  induction count with
  | zero => rw [Nat.zero_mul, List.take_zero]; rfl
  | succ count ih =>
    rw [List.range_succ, List.map_append, List.flatten_append, ih, Nat.succ_mul, List.take_add,
      List.map_singleton, List.flatten_singleton, ofNumber_rows]

theorem sum_sizes (n size count : Nat) :
    ((List.range count).map fun i => min size (n - i * size)).sum = min (count * size) n := by
  induction count with
  | zero => rw [Nat.zero_mul, Nat.zero_min]; rfl
  | succ count ih =>
    rw [List.range_succ, List.map_append, List.sum_append, ih, List.map_singleton,
      List.sum_singleton, Nat.succ_mul]
    omega

theorem flatten_ranges (all : List Row) {size : Nat} (hsize : 0 < size) :
    ((ranges all.length size).map fun c => c.rows all).flatten = all := by
  rw [ranges_eq, List.map_map]
  exact (flatten_firstRanges all size _).trans (List.take_of_length_le (le_number_mul hsize))

end Chunk

/-- The rows of the chunk with a number. -/
def Dataset.chunk (d : Dataset) (size i : Nat) : List Row := (d.rows.drop (i * size)).take size

theorem Dataset.ofNumber_rows (d : Dataset) (size i : Nat) :
    (Chunk.ofNumber d.rowCount size i).rows d.rows = d.chunk size i :=
  Chunk.ofNumber_rows d.rows size i

/-- Work on two lists of rows is work on the first and then on the second. -/
structure Additive (f : List Row → Except Error (List Row)) : Prop where
  nil : f [] = .ok []
  append (xs ys : List Row) : f (xs ++ ys) = do return (← f xs) ++ (← f ys)

theorem Additive.flatten {f : List Row → Except Error (List Row)} (h : Additive f)
    (parts : List (List Row)) : f parts.flatten = (parts.mapM f).map List.flatten := by
  induction parts with
  | nil => exact h.nil
  | cons part parts ih =>
    rw [List.flatten_cons, h.append, ih, List.mapM_cons]
    cases f part with
    | error e => rfl
    | ok out => cases parts.mapM f <;> rfl

theorem additive_filter (p : Row → Bool) : Additive fun rows => .ok (rows.filter p) where
  nil := rfl
  append xs ys := congrArg Except.ok (List.filter_append xs ys)

theorem additive_mapM (f : Row → Except Error Row) : Additive fun rows => rows.mapM f where
  nil := rfl
  append _ _ := List.mapM_append

theorem additive_select (b : BoundCondition) (keep : Bool) : Additive (b.select keep) where
  nil := rfl
  append xs ys := by
    induction xs with
    | nil =>
      rw [List.nil_append, BoundCondition.select]
      cases b.select keep ys <;> rfl
    | cons row xs ih =>
      rw [List.cons_append, BoundCondition.select, BoundCondition.select, ih]
      cases b.evaluateRow row with
      | error e => rfl
      | ok answer =>
        cases b.select keep xs with
        | error e => rfl
        | ok kept =>
          cases b.select keep ys with
          | error e => rfl
          | ok more =>
            change Except.ok _ = Except.ok _
            by_cases hanswer : answer = keep
            · rw [if_pos hanswer, if_pos hanswer, List.cons_append]
            · rw [if_neg hanswer, if_neg hanswer]

/-- The first row for which a function fails, with its error. -/
def FirstError {α : Type} (f : Row → Except Error α) (rows : List Row) (e : Error) : Prop :=
  ∃ before row after, rows = before ++ row :: after ∧ (∀ r ∈ before, ∃ x, f r = .ok x) ∧
    f row = .error e

section FirstError

variable {α : Type} {f : Row → Except Error α} {row : Row} {rows : List Row} {e : Error}

theorem not_firstError_nil : ¬FirstError f [] e := by
  rintro ⟨before, row, after, h, -⟩
  cases before <;> cases h

theorem firstError_cons_of_ok {x : α} (hx : f row = .ok x) :
    FirstError f (row :: rows) e ↔ FirstError f rows e := by
  constructor
  · rintro ⟨_ | ⟨first, before⟩, failing, after, h, hbefore, herror⟩
    · cases h
      cases hx.symm.trans herror
    · cases h
      exact ⟨before, failing, after, rfl, fun r hr => hbefore r (List.mem_cons_of_mem _ hr), herror⟩
  · rintro ⟨before, failing, after, rfl, hbefore, herror⟩
    exact ⟨row :: before, failing, after, rfl, List.forall_mem_cons.2 ⟨⟨x, hx⟩, hbefore⟩, herror⟩

theorem firstError_cons_of_error {e' : Error} (he : f row = .error e') :
    FirstError f (row :: rows) e ↔ e' = e := by
  constructor
  · rintro ⟨_ | ⟨first, before⟩, failing, after, h, hbefore, herror⟩
    · cases h
      exact Except.error.inj (he.symm.trans herror)
    · cases h
      obtain ⟨x, hx⟩ := hbefore _ List.mem_cons_self
      cases he.symm.trans hx
  · rintro rfl
    exact ⟨[], row, rows, rfl, fun r hr => absurd hr List.not_mem_nil, he⟩

/-- Work on rows fails with the first row for which `f` fails. -/
structure FailsWith {β : Type} (f : Row → Except Error α) (g : List Row → Except Error β) :
    Prop where
  nil : ∃ x, g [] = .ok x
  error {row : Row} {e : Error} (rows : List Row) : f row = .error e → g (row :: rows) = .error e
  ok {row : Row} {x : α} (rows : List Row) (e : Error) :
    f row = .ok x → (g (row :: rows) = .error e ↔ g rows = .error e)

theorem FailsWith.iff {β : Type} {g : List Row → Except Error β} (h : FailsWith f g) :
    g rows = .error e ↔ FirstError f rows e := by
  induction rows with
  | nil =>
    obtain ⟨x, hx⟩ := h.nil
    constructor
    · intro herror
      cases hx.symm.trans herror
    · intro herror
      exact absurd herror not_firstError_nil
  | cons row rows ih =>
    cases hrow : f row with
    | error e' =>
      rw [firstError_cons_of_error hrow, h.error rows hrow]
      exact ⟨Except.error.inj, congrArg _⟩
    | ok x => rw [firstError_cons_of_ok hrow, h.ok rows e hrow, ih]

theorem failsWith_mapM (f : Row → Except Error Row) : FailsWith f fun rows => rows.mapM f where
  nil := ⟨[], rfl⟩
  error rows herror := by rw [List.mapM_cons, herror]; rfl
  ok rows e hok := by
    rw [List.mapM_cons, hok]
    cases rows.mapM f <;> simp [bind, Except.bind, pure, Except.pure]

theorem failsWith_select (b : BoundCondition) (keep : Bool) :
    FailsWith b.evaluateRow (b.select keep) where
  nil := ⟨[], rfl⟩
  error rows herror := by rw [BoundCondition.select, herror]; rfl
  ok rows e hok := by
    rw [BoundCondition.select, hok]
    cases b.select keep rows <;> simp [bind, Except.bind, pure, Except.pure]

theorem failsWith_forM (f : Row → Except Error Unit) : FailsWith f fun rows => rows.forM f where
  nil := ⟨(), rfl⟩
  error rows herror := by
    change (f _ >>= fun _ => rows.forM f) = _
    rw [herror]
    rfl
  ok rows e hok := by
    change (f _ >>= fun _ => rows.forM f) = _ ↔ _
    rw [hok]
    rfl

end FirstError

end Tabular
