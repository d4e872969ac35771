import Tabular.Condition.Basic

namespace Tabular.Condition

mutual

/-- The column conditions of a condition, from left to right. -/
def columns : Condition → List ColumnCondition
  | column c => [c]
  | and cs => columnsOf cs
  | or cs => columnsOf cs
  | not c => columns c
  | xor a b => columns a ++ columns b

def columnsOf : List Condition → List ColumnCondition
  | [] => []
  | c :: cs => columns c ++ columnsOf cs

end

mutual

/-- The answer of a condition, given the answer of each column condition; an empty `and` is true and
an empty `or` false. -/
def denote (test : ColumnCondition → Bool) : Condition → Bool
  | column c => test c
  | and cs => (denoteEach test cs).all id
  | or cs => (denoteEach test cs).any id
  | not c => !denote test c
  | xor a b => denote test a != denote test b

def denoteEach (test : ColumnCondition → Bool) : List Condition → List Bool
  | [] => []
  | c :: cs => denote test c :: denoteEach test cs

end

/-- Induction with a hypothesis for every condition under a connective. -/
@[elab_as_elim]
theorem induction {motive : Condition → Prop} (t : Condition)
    (column : ∀ c, motive (.column c))
    (and : ∀ cs, (∀ c ∈ cs, motive c) → motive (.and cs))
    (or : ∀ cs, (∀ c ∈ cs, motive c) → motive (.or cs))
    (not : ∀ c, motive c → motive (.not c))
    (xor : ∀ a b, motive a → motive b → motive (.xor a b)) : motive t :=
  @Condition.rec motive (fun cs => ∀ c ∈ cs, motive c) column and or not xor
    (fun _ h => absurd h List.not_mem_nil)
    (fun _ _ head tail => List.forall_mem_cons.2 ⟨head, tail⟩) t

variable {cs : List Condition} {leaf : ColumnCondition}

theorem mem_columnsOf : leaf ∈ columnsOf cs ↔ ∃ t ∈ cs, leaf ∈ t.columns := by
  induction cs with
  | nil => simp [columnsOf]
  | cons c cs ih => simp only [columnsOf, List.mem_append, ih, List.mem_cons, exists_eq_or_imp]

theorem forall_columnsOf {p : ColumnCondition → Prop} :
    (∀ c ∈ columnsOf cs, p c) ↔ ∀ t ∈ cs, ∀ c ∈ t.columns, p c := by
  constructor
  · exact fun h t ht c hc => h c (mem_columnsOf.2 ⟨t, ht, hc⟩)
  · intro h c hc
    obtain ⟨t, ht, hmem⟩ := mem_columnsOf.1 hc
    exact h t ht c hmem

theorem denoteEach_eq_map (test : ColumnCondition → Bool) (cs : List Condition) :
    denoteEach test cs = cs.map (denote test) := by
  induction cs with
  | nil => rfl
  | cons c cs ih => rw [denoteEach, ih, List.map_cons]

theorem denote_and (test : ColumnCondition → Bool) (cs : List Condition) :
    denote test (.and cs) = cs.all (denote test) := by
  rw [denote, denoteEach_eq_map, List.all_map]
  rfl

theorem denote_or (test : ColumnCondition → Bool) (cs : List Condition) :
    denote test (.or cs) = cs.any (denote test) := by
  rw [denote, denoteEach_eq_map, List.any_map]
  rfl

end Tabular.Condition
