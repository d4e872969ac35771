import Tabular.Proofs.Condition.Tree
import Tabular.Proofs.Definition.Column

namespace Tabular

namespace Definition

variable {key : String} {n : Node} {d : Definition}

theorem lookup_insert (h : ∀ p ∈ d, p.1 ≠ key) : (d.insert key n).lookup key = some n := by
  induction d with
  | nil => simp [Definition.insert]
  | cons p d ih =>
    obtain ⟨hp, hd⟩ := List.forall_mem_cons.1 h
    have hne : (key == p.1) = false := beq_eq_false_iff_ne.2 (Ne.symm hp)
    rw [Definition.insert]
    split
    · exact List.lookup_cons_self
    · rw [List.lookup_cons, hne, ih hd]

theorem filter_insert (h : ∀ p ∈ d, p.1 ≠ key) : (d.insert key n).filter (·.1 != key) = d := by
  induction d with
  | nil => simp [Definition.insert]
  | cons p d ih =>
    obtain ⟨hp, hd⟩ := List.forall_mem_cons.1 h
    have hkeep : (p.1 != key) = true := bne_iff_ne.2 hp
    have hall : d.filter (·.1 != key) = d :=
      List.filter_eq_self.2 fun q hq => bne_iff_ne.2 (hd q hq)
    rw [Definition.insert]
    split
    · simp only [List.filter_cons, bne_self_eq_false, Bool.false_eq_true, hkeep, ↓reduceIte, hall]
    · simp only [List.filter_cons, hkeep, ↓reduceIte, ih hd]

end Definition

namespace ConditionForm

theorem node_read (n : Node) : (read n).node = n := by
  cases n <;> rfl

theorem readItems_eq_map (items : List Node) : readItems items = items.map read := by
  induction items with
  | nil => rfl
  | cons n items ih => rw [readItems, ih, List.map_cons]

theorem readFields_eq_map (d : Definition) : readFields d = d.map fun p => (p.1, read p.2) := by
  induction d with
  | nil => rfl
  | cons p d ih => rw [readFields, ih, List.map_cons]

theorem plain_readFields (d : Definition) : plain (.named (readFields d)) = .named d := by
  simp [plain, readFields_eq_map, node_read, Function.comp_def]

theorem lookup_readFields (d : Definition) (key : String) :
    (readFields d).lookup key = (d.lookup key).map read := by
  induction d with
  | nil => rfl
  | cons p d ih =>
    rw [readFields, List.lookup_cons, List.lookup_cons, ih]
    cases key == p.1 <;> rfl

theorem filter_readFields (d : Definition) (key : String) :
    (readFields d).filter (·.1 != key) = readFields (d.filter (·.1 != key)) := by
  rw [readFields_eq_map, readFields_eq_map, List.filter_map]
  rfl

end ConditionForm

namespace Condition

mutual

/-- A condition before its operands are read. -/
def form : Condition → ConditionForm
  | column c => .column c.form
  | and cs => .and (forms cs)
  | or cs => .or (forms cs)
  | not c => .not (form c)
  | xor a b => .xor (form a) (form b)

def forms : List Condition → List ConditionForm
  | [] => []
  | c :: cs => form c :: forms cs

end

theorem forms_eq_map (cs : List Condition) : forms cs = cs.map form := by
  induction cs with
  | nil => rfl
  | cons c cs ih => rw [forms, ih, List.map_cons]

theorem toNodes_eq_map (cs : List Condition) :
    toNodes cs = cs.map fun c => .object (toDefinition c) := by
  induction cs with
  | nil => rfl
  | cons c cs ih => rw [toNodes, ih, List.map_cons]

theorem conditions_read {cs : List Condition}
    (h : ∀ t ∈ cs, (ConditionForm.read (.object t.toDefinition)).condition = some t.form) :
    (ConditionForm.read (.list (toNodes cs))).conditions = some (forms cs) := by
  have hread : (ConditionForm.read (.list (toNodes cs))).conditions =
      (ConditionForm.readItems (toNodes cs)).mapM ReadNode.condition := rfl
  rw [hread, ConditionForm.readItems_eq_map, toNodes_eq_map, List.map_map, forms_eq_map]
  exact mapM_map_eq_pure h

theorem condition_read (t : Condition) :
    (ConditionForm.read (.object t.toDefinition)).condition = some t.form := by
  induction t using induction with
  | column c =>
    have hkey := c.key_ne
    have hparts := c.ofParts?_toDefinition true
    rw [toDefinition, form]
    have hread (d : Definition) : (ConditionForm.read (.object d)).condition =
      ConditionForm.ofParts? (.named (ConditionForm.readFields d)) := rfl
    rw [hread, ConditionForm.ofParts?, Parts.splitTag, ConditionForm.lookup_readFields,
      Definition.lookup_insert hkey, ConditionForm.filter_readFields,
      Definition.filter_insert hkey]
    change (ColumnForm.ofParts? true (ConditionForm.plain
      (.named (ConditionForm.readFields c.toDefinition)))).map ConditionForm.column = _
    rw [ConditionForm.plain_readFields, hparts, Option.map_some]
  | and cs ih =>
    have hread : (ConditionForm.read (.object (toDefinition (.and cs)))).condition =
        (ConditionForm.read (.list (toNodes cs))).conditions.map .and := rfl
    rw [hread, conditions_read ih, Option.map_some, form]
  | or cs ih =>
    have hread : (ConditionForm.read (.object (toDefinition (.or cs)))).condition =
        (ConditionForm.read (.list (toNodes cs))).conditions.map .or := rfl
    rw [hread, conditions_read ih, Option.map_some, form]
  | not c ih =>
    have hread : (ConditionForm.read (.object (toDefinition (.not c)))).condition =
        (ConditionForm.read (.object (toDefinition c))).condition.map .not := rfl
    rw [hread, ih, Option.map_some, form]
  | xor a b iha ihb =>
    have hread : (ConditionForm.read (.object (toDefinition (.xor a b)))).condition =
        ((ConditionForm.read (.object (toDefinition a))).condition.bind fun x =>
          (ConditionForm.read (.object (toDefinition b))).condition.bind fun y =>
            some (.xor x y)) := rfl
    rw [hread, iha, ihb, Option.bind_some, Option.bind_some, form]

theorem exists_tag (t : Condition) :
    ∃ tag, t.toDefinition.lookup "condition" = some (.text tag) := by
  cases t with
  | column c =>
    rw [toDefinition]
    exact ⟨"Column", Definition.lookup_insert c.key_ne⟩
  | and cs => exact ⟨"And", rfl⟩
  | or cs => exact ⟨"Or", rfl⟩
  | not c => exact ⟨"Not", rfl⟩
  | xor a b => exact ⟨"Xor", rfl⟩

theorem ofDefinition_toDefinition_eq (t : Condition) :
    ofDefinition t.toDefinition = t.form.build := by
  obtain ⟨tag, htag⟩ := t.exists_tag
  have hform : ConditionForm.ofDefinition? t.toDefinition = some t.form := by
    rw [ConditionForm.ofDefinition?, htag]
    exact t.condition_read
  rw [ofDefinition, hform]

theorem buildAll_forms {cs : List Condition} (h : ∀ t ∈ cs, t.form.build = .ok t) :
    ConditionForm.buildAll (forms cs) = .ok cs := by
  induction cs with
  | nil => rfl
  | cons c cs ih =>
    obtain ⟨hc, hcs⟩ := List.forall_mem_cons.1 h
    rw [forms, ConditionForm.buildAll, hc, ih hcs]
    rfl

theorem build_form {t : Condition} (h : ∀ c ∈ t.columns, c.form.build = .ok c) :
    t.form.build = .ok t := by
  induction t using induction with
  | column c =>
    rw [form, ConditionForm.build, h c (List.mem_singleton_self c)]
    rfl
  | and cs ih =>
    rw [form, ConditionForm.build, buildAll_forms fun t ht => ih t ht (forall_columnsOf.1 h t ht)]
    rfl
  | or cs ih =>
    rw [form, ConditionForm.build, buildAll_forms fun t ht => ih t ht (forall_columnsOf.1 h t ht)]
    rfl
  | not c ih =>
    rw [form, ConditionForm.build, ih h]
    rfl
  | xor a b iha ihb =>
    obtain ⟨ha, hb⟩ := List.forall_mem_append.1 h
    rw [form, ConditionForm.build, iha ha, ihb hb]
    rfl

theorem sameAll_self {cs : List Condition} (h : ∀ t ∈ cs, same t t = true) :
    sameAll cs cs = true := by
  induction cs with
  | nil => rfl
  | cons c cs ih =>
    obtain ⟨hc, hcs⟩ := List.forall_mem_cons.1 h
    rw [sameAll, hc, ih hcs, Bool.and_self]

theorem same_self {t : Condition} (h : ∀ c ∈ t.columns, (c == c) = true) : same t t = true := by
  induction t using induction with
  | column c =>
    rw [same]
    exact h c (List.mem_singleton_self c)
  | and cs ih =>
    rw [same]
    exact sameAll_self fun t ht => ih t ht (forall_columnsOf.1 h t ht)
  | or cs ih =>
    rw [same]
    exact sameAll_self fun t ht => ih t ht (forall_columnsOf.1 h t ht)
  | not c ih =>
    rw [same]
    exact ih h
  | xor a b iha ihb =>
    obtain ⟨ha, hb⟩ := List.forall_mem_append.1 h
    rw [same, iha ha, ihb hb, Bool.and_self]

mutual

theorem isTyped_of_build : ∀ {f : ConditionForm} {t : Condition}, f.build = .ok t →
    ∀ c ∈ t.columns, c.IsTyped
  | .column f, _, h => by
    obtain ⟨c, hc, rfl⟩ := map_eq_ok.1 h
    exact List.forall_mem_singleton.2 (ColumnCondition.isTyped_of_build hc)
  | .and fs, _, h => by
    obtain ⟨cs, hcs, rfl⟩ := bind_pure_eq_ok.1 h
    exact isTyped_of_buildAll hcs
  | .or fs, _, h => by
    obtain ⟨cs, hcs, rfl⟩ := bind_pure_eq_ok.1 h
    exact isTyped_of_buildAll hcs
  | .not f, _, h => by
    obtain ⟨c, hc, rfl⟩ := bind_pure_eq_ok.1 h
    have hleaves := isTyped_of_build hc
    exact hleaves
  | .xor f g, _, h => by
    obtain ⟨a, ha, h⟩ := bind_eq_ok.1 h
    obtain ⟨b, hb, rfl⟩ := bind_pure_eq_ok.1 h
    exact List.forall_mem_append.2 ⟨isTyped_of_build ha, isTyped_of_build hb⟩

theorem isTyped_of_buildAll : ∀ {fs : List ConditionForm} {cs : List Condition},
    ConditionForm.buildAll fs = .ok cs → ∀ c ∈ columnsOf cs, c.IsTyped
  | [], _, h => by
    cases h
    exact fun c hc => absurd hc List.not_mem_nil
  | f :: fs, _, h => by
    obtain ⟨t, ht, h⟩ := bind_eq_ok.1 h
    obtain ⟨ts, hts, rfl⟩ := bind_pure_eq_ok.1 h
    exact List.forall_mem_append.2 ⟨isTyped_of_build ht, isTyped_of_buildAll hts⟩

end

end Condition

namespace ColumnCondition

/-- The column conditions that the constructors for single types make, and those that are restored
from definitions, alone or as part of a condition. -/
inductive Constructed : ColumnCondition → Prop where
  | integer {column op n c} (h : ColumnCondition.integer column op n = .ok c) : Constructed c
  | integerSet {column op members c} (h : ColumnCondition.integerSet column op members = .ok c) :
      Constructed c
  | long {column op n c} (h : ColumnCondition.long column op n = .ok c) : Constructed c
  | longWithMode {column mode op n c}
      (h : ColumnCondition.longWithMode column mode op n = .ok c) : Constructed c
  | longSet {column op members c} (h : ColumnCondition.longSet column op members = .ok c) :
      Constructed c
  | float {column op x c} (h : ColumnCondition.float column op x = .ok c) : Constructed c
  | floatSet {column op members c} (h : ColumnCondition.floatSet column op members = .ok c) :
      Constructed c
  | double {column op x c} (h : ColumnCondition.double column op x = .ok c) : Constructed c
  | doubleSet {column op members c} (h : ColumnCondition.doubleSet column op members = .ok c) :
      Constructed c
  | string {column op s c} (h : ColumnCondition.string column op s = .ok c) : Constructed c
  | stringSet {column op members c} (h : ColumnCondition.stringSet column op members = .ok c) :
      Constructed c
  | categorical {column op s c} (h : ColumnCondition.categorical column op s = .ok c) :
      Constructed c
  | categoricalSet {column op members c}
      (h : ColumnCondition.categoricalSet column op members = .ok c) : Constructed c
  | boolean {column op b c} (h : ColumnCondition.boolean column op b = .ok c) : Constructed c
  | withMode {c} (h : Constructed c) (mode : SequenceMode) : Constructed (c.withMode mode)
  | restored {d c} (h : ofDefinition d = .ok c) : Constructed c
  | part {d t c} (h : Condition.ofDefinition d = .ok t) (hc : c ∈ t.columns) : Constructed c

theorem isTyped_of_ofValue {column : String} {op : Operator} {v : Value} {c : ColumnCondition}
    (h : ofValue column op v = .ok c) : c.IsTyped :=
  isTyped_of_typed h (List.forall_mem_singleton.2 v.type_accepts)

theorem isTyped_of_ofValues {α : Type} {column : String} {op : Operator} {members : List α}
    {value : α → Value} {type : ColumnType} {c : ColumnCondition}
    (h : ofValues column op (members.map value) type = .ok c)
    (accepted : ∀ a, type.accepts (value a) = true) : c.IsTyped :=
  isTyped_of_typed h (List.forall_mem_map.2 fun a _ => accepted a)

theorem Constructed.isTyped {c : ColumnCondition} (h : Constructed c) : c.IsTyped := by
  induction h with
  | integer h | long h | float h | double h | string h | boolean h => exact isTyped_of_ofValue h
  | longWithMode h | categorical h =>
    exact isTyped_of_typed h (List.forall_mem_singleton.2 rfl)
  | integerSet h | longSet h | floatSet h | doubleSet h | stringSet h | categoricalSet h =>
    exact isTyped_of_ofValues h fun _ => rfl
  | withMode h mode ih => exact ih.withMode mode
  | @restored d c h =>
    rw [ofDefinition] at h
    split at h
    · exact isTyped_of_build h
    · cases h
  | @part d t c h hc =>
    rw [Condition.ofDefinition] at h
    split at h
    · exact Condition.isTyped_of_build h c hc
    · cases h

end ColumnCondition

/-- A condition over constructed or restored column conditions is restored from its definition,
unless a NaN is among the operands. -/
theorem Condition.ofDefinition_toDefinition (t : Condition)
    (constructed : ∀ c ∈ t.columns, c.Constructed)
    (numbers : ∀ c ∈ t.columns, ∀ v ∈ c.operand.values, v.isNaN = false) :
    Condition.ofDefinition t.toDefinition = .ok t ∧ (t == t) = true := by
  rw [t.ofDefinition_toDefinition_eq]
  exact ⟨build_form fun c hc => (constructed c hc).isTyped.build_form (numbers c hc),
    same_self fun c hc => (constructed c hc).isTyped.beq_self (numbers c hc)⟩

theorem Condition.ofDefinition_toDefinition_of_two :
    ∃ a b, ColumnCondition.floatSet "x" .notInSet [.infinity true, .zero] = .ok a ∧
      ColumnCondition.categorical "y" .equal "NaN" = .ok b ∧
      ∀ t, t = Condition.xor (.and [.column (a.withMode .and)]) (.not (.or [.column b])) →
        Condition.ofDefinition t.toDefinition = .ok t := by
  have ha : ColumnCondition.floatSet "x" .notInSet [.infinity true, .zero] = .ok _ := rfl
  have hb : ColumnCondition.categorical "y" .equal "NaN" = .ok _ := rfl
  refine ⟨_, _, ha, hb, fun t ht => (ofDefinition_toDefinition t ?_ ?_).1⟩
  · subst ht
    exact List.forall_mem_cons.2
      ⟨.withMode (.floatSet ha) .and, List.forall_mem_singleton.2 (.categorical hb)⟩
  · subst ht
    exact List.forall_mem_cons.2
      ⟨List.forall_mem_cons.2 ⟨rfl, List.forall_mem_singleton.2 rfl⟩,
        List.forall_mem_singleton.2 (List.forall_mem_singleton.2 rfl)⟩

end Tabular
