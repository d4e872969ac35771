import Tabular.Proofs.Condition.Tree
import Tabular.Proofs.Except

namespace Tabular

section ShortCircuit

variable {α β : Type} {p q : β → Except Error Bool} {answer : α → Bool} {as : List α} {bs : List β}

theorem allM_cons (p : β → Except Error Bool) (b : β) (bs : List β) :
    (b :: bs).allM p = p b >>= fun x => if x then bs.allM p else .ok false := by
  rw [List.allM]
  cases p b with
  | error e => rfl
  | ok x => cases x <;> rfl

theorem anyM_cons (p : β → Except Error Bool) (b : β) (bs : List β) :
    (b :: bs).anyM p = p b >>= fun x => if x then .ok true else bs.anyM p := by
  rw [List.anyM]
  cases p b with
  | error e => rfl
  | ok x => cases x <;> rfl

theorem allM_congr (h : ∀ b ∈ bs, p b = q b) : bs.allM p = bs.allM q := by
  induction bs with
  | nil => rfl
  | cons b bs ih =>
    obtain ⟨hhead, htail⟩ := List.forall_mem_cons.1 h
    rw [allM_cons, allM_cons, hhead, ih htail]

theorem anyM_congr (h : ∀ b ∈ bs, p b = q b) : bs.anyM p = bs.anyM q := by
  induction bs with
  | nil => rfl
  | cons b bs ih =>
    obtain ⟨hhead, htail⟩ := List.forall_mem_cons.1 h
    rw [anyM_cons, anyM_cons, hhead, ih htail]

theorem allM_eq_all (h : List.Forall₂ (fun a b => p b = .ok (answer a)) as bs) :
    bs.allM p = .ok (as.all answer) := by
  induction h with
  | nil => rfl
  | @cons a b as bs hb htail ih =>
    rw [allM_cons, hb, List.all_cons]
    cases ha : answer a with
    | true => exact ih
    | false => rfl

theorem anyM_eq_any (h : List.Forall₂ (fun a b => p b = .ok (answer a)) as bs) :
    bs.anyM p = .ok (as.any answer) := by
  induction h with
  | nil => rfl
  | @cons a b as bs hb htail ih =>
    rw [anyM_cons, hb, List.any_cons]
    cases ha : answer a with
    | true => rfl
    | false => exact ih

theorem exists_of_allM_error {e : Error} (h : bs.allM p = .error e) : ∃ b ∈ bs, p b = .error e := by
  induction bs with
  | nil => cases h
  | cons b bs ih =>
    rw [allM_cons] at h
    rcases bind_eq_error.1 h with hb | ⟨x, -, h⟩
    · exact ⟨b, List.mem_cons_self, hb⟩
    · cases x with
      | false => cases h
      | true =>
        obtain ⟨c, hc, he⟩ := ih h
        exact ⟨c, List.mem_cons_of_mem b hc, he⟩

theorem exists_of_anyM_error {e : Error} (h : bs.anyM p = .error e) : ∃ b ∈ bs, p b = .error e := by
  induction bs with
  | nil => cases h
  | cons b bs ih =>
    rw [anyM_cons] at h
    rcases bind_eq_error.1 h with hb | ⟨x, -, h⟩
    · exact ⟨b, List.mem_cons_self, hb⟩
    · cases x with
      | true => cases h
      | false =>
        obtain ⟨c, hc, he⟩ := ih h
        exact ⟨c, List.mem_cons_of_mem b hc, he⟩

theorem anyM_eq_error {e : Error} (h : ∀ b ∈ bs, p b = .error e) (hne : bs ≠ []) :
    bs.anyM p = .error e := by
  obtain ⟨b, bs, rfl⟩ := List.exists_cons_of_ne_nil hne
  rw [anyM_cons, h b List.mem_cons_self]
  rfl

/-- Where all tests fail or none does, stopping early makes no difference, unless there is no test.
-/
theorem anyM_eq_any_outcome {γ : Type} {x : Except Error γ} {answer : γ → α → Bool}
    (h : List.Forall₂ (fun a b => p b = x.map (answer · a)) as bs) (hne : bs ≠ []) :
    bs.anyM p = x.map fun c => as.any (answer c) := by
  cases x with
  | ok c => exact anyM_eq_any h
  | error e =>
    refine anyM_eq_error (fun b hb => ?_) hne
    obtain ⟨a, -, ha⟩ := exists_of_forall₂ h.flip hb
    exact ha

theorem anyM_map {γ : Type} {f : γ → β} {cs : List γ} :
    (cs.map f).anyM p = cs.anyM fun c => p (f c) := by
  induction cs with
  | nil => rfl
  | cons c cs ih => rw [List.map_cons, anyM_cons, anyM_cons, ih]

end ShortCircuit

namespace BoundCondition

/-- The rules of the connectives: from left to right, and no further than the answer is open. -/
structure IsEvaluation (evaluate : BoundCondition → Except Error Bool) : Prop where
  and (bs : List BoundCondition) : evaluate (.and bs) = bs.allM evaluate
  or (bs : List BoundCondition) : evaluate (.or bs) = bs.anyM evaluate
  not (b : BoundCondition) : evaluate (.not b) = do return !(← evaluate b)
  xor (a b : BoundCondition) : evaluate (.xor a b) = do
    let x ← evaluate a
    let y ← evaluate b
    return x != y

theorem isEvaluation_row (row : Row) : IsEvaluation (evaluateRow row) where
  and bs := by
    rw [evaluateRow]
    induction bs with
    | nil => rfl
    | cons b bs ih => rw [everyRow, allM_cons, ih]
  or bs := by
    rw [evaluateRow]
    induction bs with
    | nil => rfl
    | cons b bs ih => rw [someRow, anyM_cons, ih]
  not b := by rw [evaluateRow]
  xor a b := by rw [evaluateRow]

theorem isEvaluation_sequence (sequence : List Row) :
    IsEvaluation (evaluateSequence sequence) where
  and bs := by
    rw [evaluateSequence]
    induction bs with
    | nil => rfl
    | cons b bs ih => rw [everySequence, allM_cons, ih]
  or bs := by
    rw [evaluateSequence]
    induction bs with
    | nil => rfl
    | cons b bs ih => rw [someSequence, anyM_cons, ih]
  not b := by rw [evaluateSequence]
  xor a b := by rw [evaluateSequence]

end BoundCondition

namespace Condition

variable {schema : Schema} {t : Condition} {b : BoundCondition} {cs : List Condition}

theorem bindAll_eq_mapM (schema : Schema) (cs : List Condition) :
    bindAll schema cs = cs.mapM (bind schema) := by
  induction cs with
  | nil => rfl
  | cons c cs ih => rw [bindAll, ih, List.mapM_cons]

theorem forall₂_of_bindAll {bs : List BoundCondition} {p : Condition → BoundCondition → Prop}
    (hbs : bindAll schema cs = .ok bs) (h : ∀ t ∈ cs, ∀ b, t.bind schema = .ok b → p t b) :
    List.Forall₂ p cs bs := by
  rw [bindAll_eq_mapM, mapM_eq_ok] at hbs
  exact ((List.forall₂_and_left cs bs).2 ⟨h, hbs⟩).imp fun t b ⟨ht, hb⟩ => ht b hb

theorem exists_of_bindAll {bs : List BoundCondition} (hbs : bindAll schema cs = .ok bs) :
    ∀ b ∈ bs, ∃ t ∈ cs, t.bind schema = .ok b := by
  rw [bindAll_eq_mapM] at hbs
  exact exists_of_mapM hbs

end Condition

namespace BoundCondition.IsEvaluation

variable {schema : Schema} {t : Condition} {b : BoundCondition}
  {evaluate evaluate' : BoundCondition → Except Error Bool}

theorem eq_of_columns (h : IsEvaluation evaluate) (h' : IsEvaluation evaluate')
    (hb : t.bind schema = .ok b)
    (leaves : ∀ c ∈ t.columns, ∀ leaf, c.bind schema = .ok leaf → evaluate leaf = evaluate' leaf) :
    evaluate b = evaluate' b := by
  induction t using Condition.induction generalizing b with
  | column c => exact leaves c (List.mem_singleton_self c) b hb
  | and cs ih =>
    obtain ⟨bs, hbs, rfl⟩ := bind_pure_eq_ok.1 hb
    rw [h.and, h'.and]
    apply allM_congr
    intro b hb
    obtain ⟨t, ht, hbind⟩ := Condition.exists_of_bindAll hbs b hb
    exact ih t ht hbind (Condition.forall_columnsOf.1 leaves t ht)
  | or cs ih =>
    obtain ⟨bs, hbs, rfl⟩ := bind_pure_eq_ok.1 hb
    rw [h.or, h'.or]
    apply anyM_congr
    intro b hb
    obtain ⟨t, ht, hbind⟩ := Condition.exists_of_bindAll hbs b hb
    exact ih t ht hbind (Condition.forall_columnsOf.1 leaves t ht)
  | not c ih =>
    obtain ⟨x, hx, rfl⟩ := bind_pure_eq_ok.1 hb
    rw [h.not, h'.not, ih hx leaves]
  | xor a b iha ihb =>
    obtain ⟨x, hx, hb⟩ := bind_eq_ok.1 hb
    obtain ⟨y, hy, rfl⟩ := bind_pure_eq_ok.1 hb
    obtain ⟨hleft, hright⟩ := List.forall_mem_append.1 leaves
    rw [h.xor, h'.xor, iha hx hleft, ihb hy hright]

/-- Where every column condition has an answer, a condition has the answer that its connectives make
of them. -/
theorem eq_denote (h : IsEvaluation evaluate) {test : ColumnCondition → Bool}
    (hb : t.bind schema = .ok b)
    (leaves : ∀ c ∈ t.columns, ∀ leaf, c.bind schema = .ok leaf →
      evaluate leaf = .ok (test c)) :
    evaluate b = .ok (t.denote test) := by
  induction t using Condition.induction generalizing b with
  | column c => exact leaves c (List.mem_singleton_self c) b hb
  | and cs ih =>
    obtain ⟨bs, hbs, rfl⟩ := bind_pure_eq_ok.1 hb
    rw [h.and, Condition.denote_and]
    apply allM_eq_all
    apply Condition.forall₂_of_bindAll hbs
    intro t ht b hb
    exact ih t ht hb (Condition.forall_columnsOf.1 leaves t ht)
  | or cs ih =>
    obtain ⟨bs, hbs, rfl⟩ := bind_pure_eq_ok.1 hb
    rw [h.or, Condition.denote_or]
    apply anyM_eq_any
    apply Condition.forall₂_of_bindAll hbs
    intro t ht b hb
    exact ih t ht hb (Condition.forall_columnsOf.1 leaves t ht)
  | not c ih =>
    obtain ⟨x, hx, rfl⟩ := bind_pure_eq_ok.1 hb
    rw [h.not, ih hx leaves]
    rfl
  | xor a b iha ihb =>
    obtain ⟨x, hx, hb⟩ := bind_eq_ok.1 hb
    obtain ⟨y, hy, rfl⟩ := bind_pure_eq_ok.1 hb
    obtain ⟨hleft, hright⟩ := List.forall_mem_append.1 leaves
    rw [h.xor, iha hx hleft, ihb hy hright]
    rfl

theorem exists_of_error (h : IsEvaluation evaluate) (hb : t.bind schema = .ok b) {e : Error}
    (he : evaluate b = .error e) :
    ∃ c ∈ t.columns, ∃ leaf, c.bind schema = .ok leaf ∧ evaluate leaf = .error e := by
  induction t using Condition.induction generalizing b with
  | column c => exact ⟨c, List.mem_singleton_self c, b, hb, he⟩
  | and cs ih =>
    obtain ⟨bs, hbs, rfl⟩ := bind_pure_eq_ok.1 hb
    rw [h.and] at he
    obtain ⟨b, hmem, he⟩ := exists_of_allM_error he
    obtain ⟨t, ht, hbind⟩ := Condition.exists_of_bindAll hbs b hmem
    obtain ⟨c, hc, hleaf⟩ := ih t ht hbind he
    exact ⟨c, Condition.mem_columnsOf.2 ⟨t, ht, hc⟩, hleaf⟩
  | or cs ih =>
    obtain ⟨bs, hbs, rfl⟩ := bind_pure_eq_ok.1 hb
    rw [h.or] at he
    obtain ⟨b, hmem, he⟩ := exists_of_anyM_error he
    obtain ⟨t, ht, hbind⟩ := Condition.exists_of_bindAll hbs b hmem
    obtain ⟨c, hc, hleaf⟩ := ih t ht hbind he
    exact ⟨c, Condition.mem_columnsOf.2 ⟨t, ht, hc⟩, hleaf⟩
  | not c ih =>
    obtain ⟨x, hx, rfl⟩ := bind_pure_eq_ok.1 hb
    rw [h.not] at he
    rcases bind_eq_error.1 he with he | ⟨_, -, he⟩
    · exact ih hx he
    · cases he
  | xor a b iha ihb =>
    obtain ⟨x, hx, hb⟩ := bind_eq_ok.1 hb
    obtain ⟨y, hy, rfl⟩ := bind_pure_eq_ok.1 hb
    rw [h.xor] at he
    rcases bind_eq_error.1 he with he | ⟨_, -, he⟩
    · obtain ⟨c, hc, hleaf⟩ := iha hx he
      exact ⟨c, List.mem_append_left _ hc, hleaf⟩
    · rcases bind_eq_error.1 he with he | ⟨_, -, he⟩
      · obtain ⟨c, hc, hleaf⟩ := ihb hy he
        exact ⟨c, List.mem_append_right _ hc, hleaf⟩
      · cases he

end BoundCondition.IsEvaluation

end Tabular
