import Mathlib.Data.List.Basic
import Tabular.Transform.Lines

namespace Tabular

/-- Where a reader stands in a field. After a quote within quotes the field is closed, unless the
next character is a quote as well. -/
inductive Place where
  | start
  | plain
  | quoted
  | closed
deriving DecidableEq

/-- What a reader has found: the records before the current one, the fields of it before the current
one, and the text of that one. -/
structure Reader where
  place : Place
  text : List Char
  fields : List String
  records : List (List String)
deriving DecidableEq

namespace Reader

/-- The current record if it ends here. -/
def record (r : Reader) : List String := r.fields ++ [String.ofList r.text]

/-- All records if the text ends here. -/
def all (r : Reader) : List (List String) := r.records ++ [r.record]

/-- A reader at the start of a field. -/
def atField (fields : List String) (records : List (List String)) : Reader :=
  ⟨.start, [], fields, records⟩

def nextField (r : Reader) : Reader := atField r.record r.records

def nextRecord (r : Reader) : Reader := atField [] r.all

def take (r : Reader) (place : Place) (c : Char) : Reader :=
  { r with place, text := r.text ++ [c] }

/-- A character after which the field is at an end, or else `other`. -/
def separated (delimiter : Char) (r : Reader) (c : Char) (other : Option Reader) : Option Reader :=
  if c = delimiter then some r.nextField
  else if c = '\n' then some r.nextRecord
  else other

/-- Reads one character. A quote opens quotes at the start of a field only, and closed quotes are
followed by the end of the field. -/
def step (delimiter quote : Char) (r : Reader) (c : Char) : Option Reader :=
  match r.place with
  | .start =>
    if c = quote then some { r with place := .quoted }
    else r.separated delimiter c (some (r.take .plain c))
  | .plain => r.separated delimiter c (some (r.take .plain c))
  | .quoted => some (if c = quote then { r with place := .closed } else r.take .quoted c)
  | .closed => if c = quote then some (r.take .quoted c) else r.separated delimiter c none

def run (delimiter quote : Char) (r : Reader) (text : List Char) : Option Reader :=
  text.foldlM (step delimiter quote) r

/-- A text after which a reader stands outside quotes and has found some records, one of them the
current one. -/
def Reads (delimiter quote : Char) (r : Reader) (text : List Char) (record : List String)
    (records : List (List String)) : Prop :=
  ∃ s, r.run delimiter quote text = some s ∧ s.place ≠ .quoted ∧ s.record = record ∧
    s.records = records

end Reader

/-- The records of a delimited text; there are none if quotes are left open or not followed by the
end of a field. -/
def readDelimited (delimiter quote : Char) (text : String) : Option (List (List String)) := do
  let r ← (Reader.atField [] []).run delimiter quote text.toList
  if r.place = .quoted then none else some r.all

section Search

variable {p c : Char} {text : List Char}

theorem stripStart?_singleton (p c : Char) (text : List Char) :
    stripStart? [p] (c :: text) = if p = c then some text else none := rfl

theorem occursIn_singleton (p : Char) (text : List Char) : occursIn [p] text = text.contains p := by
  induction text with
  | nil => rfl
  | cons c text ih =>
    rw [occursIn, ih, stripStart?_singleton, List.contains_cons]
    by_cases h : p = c
    · simp [h]
    · simp [h]

theorem doubled_singleton (p : Char) (text : List Char) :
    doubled [p] text = text.flatMap fun c => if c = p then [p, p] else [c] := by
  rw [doubled, if_neg (by simp)]
  induction text with
  | nil => rfl
  | cons c text ih =>
    rw [doubledFrom, stripStart?_singleton, List.flatMap_cons]
    by_cases h : p = c
    · rw [if_pos h, if_pos h.symm, Option.isSome_some, if_pos rfl]
      exact congrArg _ ih
    · rw [if_neg h, if_neg (Ne.symm h), Option.isSome_none, if_neg Bool.false_ne_true]
      exact congrArg _ ih

/-- A text that is written without quotes has none of the characters that a reader takes for
something else. -/
theorem not_mem_of_needsQuotes {delimiter quote : Char}
    (h : needsQuotes [delimiter] [quote] text = false) :
    delimiter ∉ text ∧ quote ∉ text ∧ '\n' ∉ text := by
  rw [needsQuotes, occursIn_singleton, occursIn_singleton] at h
  simp only [List.isEmpty_cons, Bool.not_false, Bool.true_and, Bool.or_eq_false_iff,
    List.contains_eq_mem, decide_eq_false_iff_not, List.any_eq_false] at h
  obtain ⟨⟨hdelimiter, hquote⟩, hbreaks⟩ := h
  refine ⟨hdelimiter, hquote, ?_⟩
  intro hmem
  exact hbreaks _ hmem rfl

end Search

namespace Reader

variable {delimiter quote : Char} {r : Reader}

theorem run_append (r : Reader) (first second : List Char) :
    r.run delimiter quote (first ++ second) =
      (r.run delimiter quote first).bind fun s => s.run delimiter quote second :=
  List.foldlM_append

theorem run_cons (r : Reader) (c : Char) (text : List Char) :
    r.run delimiter quote (c :: text) =
      (r.step delimiter quote c).bind fun s => s.run delimiter quote text :=
  List.foldlM_cons

theorem step_open (h : r.place = .start) :
    r.step delimiter quote quote = some { r with place := .quoted } := by
  simp [step, h]

theorem step_close (h : r.place = .quoted) :
    r.step delimiter quote quote = some { r with place := .closed } := by
  simp [step, h]

theorem step_reopen (h : r.place = .closed) :
    r.step delimiter quote quote = some (r.take .quoted quote) := by
  simp [step, h]

theorem step_quoted {c : Char} (h : r.place = .quoted) (hquote : c ≠ quote) :
    r.step delimiter quote c = some (r.take .quoted c) := by
  simp [step, h, hquote]

theorem step_plain {c : Char} (h : r.place = .plain ∨ r.place = .start ∧ c ≠ quote)
    (hdelimiter : c ≠ delimiter) (hbreak : c ≠ '\n') :
    r.step delimiter quote c = some (r.take .plain c) := by
  rcases h with h | ⟨h, hquote⟩
  · simp [step, h, separated, hdelimiter, hbreak]
  · simp [step, h, separated, hquote, hdelimiter, hbreak]

theorem step_delimiter (hquote : delimiter ≠ quote) (h : r.place ≠ .quoted) :
    r.step delimiter quote delimiter = some r.nextField := by
  cases hplace : r.place with
  | quoted => exact absurd hplace h
  | start => simp [step, hplace, separated, hquote]
  | plain => simp [step, hplace, separated]
  | closed => simp [step, hplace, separated, hquote]

theorem step_break (hdelimiter : delimiter ≠ '\n') (hquote : quote ≠ '\n') (h : r.place ≠ .quoted) :
    r.step delimiter quote '\n' = some r.nextRecord := by
  cases hplace : r.place with
  | quoted => exact absurd hplace h
  | start => simp [step, hplace, separated, hquote.symm, hdelimiter.symm]
  | plain => simp [step, hplace, separated, hdelimiter.symm]
  | closed => simp [step, hplace, separated, hquote.symm, hdelimiter.symm]

theorem run_plain {text : List Char} (hplace : r.place = .plain) (hdelimiter : delimiter ∉ text)
    (hbreak : '\n' ∉ text) :
    r.run delimiter quote text = some { r with text := r.text ++ text } := by
  induction text generalizing r with
  | nil => simp [run]
  | cons c text ih =>
    obtain ⟨hc, hdelimiter⟩ := List.ne_and_not_mem_of_not_mem_cons hdelimiter
    obtain ⟨hc', hbreak⟩ := List.ne_and_not_mem_of_not_mem_cons hbreak
    rw [run_cons, step_plain (.inl hplace) hc.symm hc'.symm, Option.bind_some,
      ih rfl hdelimiter hbreak, take, hplace, List.append_assoc, List.singleton_append]

theorem run_doubled {text : List Char} (hplace : r.place = .quoted) :
    r.run delimiter quote (doubled [quote] text) = some { r with text := r.text ++ text } := by
  rw [doubled_singleton]
  induction text generalizing r with
  | nil => simp [run]
  | cons c text ih =>
    have hhead : r.run delimiter quote (if c = quote then [quote, quote] else [c]) =
        some (r.take .quoted c) := by
      by_cases hc : c = quote
      · rw [if_pos hc, hc, run_cons, step_close hplace, Option.bind_some, run_cons, step_reopen rfl]
        rfl
      · rw [if_neg hc, run_cons, step_quoted hplace hc]
        rfl
    rw [List.flatMap_cons, run_append, hhead, Option.bind_some, ih rfl, take, hplace,
      List.append_assoc, List.singleton_append]

section Reads

variable {text rest : List Char} {record record' fields : List String}
  {records records' : List (List String)}

theorem Reads.nextField (h : r.Reads delimiter quote text record records)
    (hquote : delimiter ≠ quote)
    (hrest : (atField record records).Reads delimiter quote rest record' records') :
    r.Reads delimiter quote (text ++ [delimiter] ++ rest) record' records' := by
  obtain ⟨s, hrun, hopen, rfl, rfl⟩ := h
  obtain ⟨t, hrest, ht⟩ := hrest
  refine ⟨t, ?_, ht⟩
  rw [List.append_assoc, run_append, hrun, Option.bind_some, List.singleton_append, run_cons,
    step_delimiter hquote hopen]
  exact hrest

theorem Reads.nextRecord (h : r.Reads delimiter quote text record records)
    (hdelimiter : delimiter ≠ '\n') (hquote : quote ≠ '\n')
    (hrest : (atField [] (records ++ [record])).Reads delimiter quote rest record' records') :
    r.Reads delimiter quote (text ++ ['\n'] ++ rest) record' records' := by
  obtain ⟨s, hrun, hopen, rfl, rfl⟩ := h
  obtain ⟨t, hrest, ht⟩ := hrest
  refine ⟨t, ?_, ht⟩
  rw [List.append_assoc, run_append, hrun, Option.bind_some, List.singleton_append, run_cons,
    step_break hdelimiter hquote hopen]
  exact hrest

variable (delimiter quote fields records)

theorem reads_plain (hdelimiter : delimiter ∉ text) (hquote : quote ∉ text)
    (hbreak : '\n' ∉ text) :
    (atField fields records).Reads delimiter quote text (fields ++ [String.ofList text])
      records := by
  cases text with
  | nil => exact ⟨atField fields records, rfl, by simp [atField], rfl, rfl⟩
  | cons c text =>
    obtain ⟨hc, hdelimiter⟩ := List.ne_and_not_mem_of_not_mem_cons hdelimiter
    obtain ⟨hc', hbreak⟩ := List.ne_and_not_mem_of_not_mem_cons hbreak
    have hc'' : c ≠ quote := (List.ne_of_not_mem_cons hquote).symm
    have hrun : (atField fields records).run delimiter quote (c :: text) =
        some ⟨.plain, c :: text, fields, records⟩ := by
      rw [run_cons, step_plain (.inr ⟨rfl, hc''⟩) hc.symm hc'.symm, Option.bind_some,
        run_plain rfl hdelimiter hbreak]
      rfl
    exact ⟨_, hrun, by simp, rfl, rfl⟩

/-- A text in quotes, with the quotes inside it doubled, is read as it was. -/
theorem reads_quoted (text : List Char) :
    (atField fields records).Reads delimiter quote (quote :: (doubled [quote] text ++ [quote]))
      (fields ++ [String.ofList text]) records := by
  have hrun : (atField fields records).run delimiter quote
      (quote :: (doubled [quote] text ++ [quote])) = some ⟨.closed, text, fields, records⟩ := by
    rw [run_cons, step_open rfl, Option.bind_some, run_append, run_doubled rfl, Option.bind_some,
      run_cons, step_close rfl]
    rfl
  exact ⟨_, hrun, by simp, rfl, rfl⟩

theorem reads_writtenField (text : String) :
    (atField fields records).Reads delimiter quote
      (writtenField (String.singleton delimiter) (some (String.singleton quote)) text).toList
      (fields ++ [text]) records := by
  have htext : String.ofList text.toList = text := String.ofList_toList
  simp only [writtenField, String.toList_singleton]
  cases hneeds : needsQuotes [delimiter] [quote] text.toList with
  | true =>
    have hread := reads_quoted delimiter quote fields records text.toList
    rw [htext] at hread
    rw [if_pos rfl, String.toList_append, String.toList_append, String.toList_singleton,
      String.toList_ofList, List.append_assoc]
    exact hread
  | false =>
    obtain ⟨hdelimiter, hquote, hbreak⟩ := not_mem_of_needsQuotes hneeds
    have hread := reads_plain delimiter quote fields records hdelimiter hquote hbreak
    rw [htext] at hread
    rw [if_neg Bool.false_ne_true]
    exact hread

variable {delimiter quote}

theorem reads_delimited (hquote : delimiter ≠ quote) {row : Row} (hrow : row ≠ []) :
    (atField fields records).Reads delimiter quote
      (row.delimited (String.singleton delimiter) (some (String.singleton quote))).toList
      (fields ++ row.map Value.fieldText) records := by
  rw [Row.delimited, String.toList_intercalate, String.toList_singleton, List.map_map]
  induction row generalizing fields with
  | nil => exact absurd rfl hrow
  | cons v row ih =>
    have hfield := reads_writtenField delimiter quote fields records v.fieldText
    cases row with
    | nil =>
      rw [List.map_singleton, List.map_singleton, List.intercalate_singleton]
      exact hfield
    | cons w row =>
      have hrest := ih (fields ++ [v.fieldText]) (List.cons_ne_nil w row)
      rw [List.append_assoc] at hrest
      rw [List.map_cons, List.map_cons, List.intercalate_cons_cons]
      exact hfield.nextField hquote hrest

theorem reads_lines (hquote : delimiter ≠ quote) (hbreak : delimiter ≠ '\n')
    (hbreak' : quote ≠ '\n')
    {rows : List Row} (hrows : rows ≠ []) (hvalues : ∀ row ∈ rows, row ≠ []) :
    ∃ last before, (atField [] records).Reads delimiter quote
        (['\n'].intercalate (rows.map fun row =>
          (row.delimited (String.singleton delimiter) (some (String.singleton quote))).toList))
        last before ∧
      before ++ [last] = records ++ rows.map fun row => row.map Value.fieldText := by
  induction rows generalizing records with
  | nil => exact absurd rfl hrows
  | cons row rows ih =>
    obtain ⟨hrow, hvalues⟩ := List.forall_mem_cons.1 hvalues
    have hline := reads_delimited [] records hquote hrow
    cases rows with
    | nil =>
      rw [List.map_singleton, List.map_singleton, List.intercalate_singleton]
      exact ⟨_, _, hline, rfl⟩
    | cons other rows =>
      obtain ⟨last, before, hrest, heq⟩ :=
        ih (records ++ [row.map Value.fieldText]) (List.cons_ne_nil other rows) hvalues
      refine ⟨last, before, ?_, ?_⟩
      · rw [List.map_cons, List.map_cons, List.intercalate_cons_cons]
        exact hline.nextRecord hbreak hbreak' hrest
      · rw [heq, List.append_assoc]
        rfl

end Reads

end Reader

theorem Value.fieldText_eq (v : Value) : v.fieldText = if v.isNull then "" else v.text := by
  cases v <;> rfl

/-- The lines of a dataset are read as its column names and then the texts of each row, missing
values as empty texts. -/
theorem Dataset.readDelimited_lines (d : Dataset) {delimiter quote : Char}
    (hquote : delimiter ≠ quote) (hbreak : delimiter ≠ '\n') (hbreak' : quote ≠ '\n')
    (columns : 0 < d.schema.size) (values : ∀ row ∈ d.rows, row ≠ []) :
    readDelimited delimiter quote
        ("\n".intercalate (d.lines (String.singleton delimiter) (some (String.singleton quote)))) =
      some (d.schema.names ::
        d.rows.map fun row => row.map fun v => if v.isNull then "" else v.text) := by
  have hheader : d.schema.names.map Value.string ≠ [] := by
    rw [ne_eq, List.map_eq_nil_iff, Schema.names, List.map_eq_nil_iff]
    exact List.ne_nil_of_length_pos columns
  have hnames : (d.schema.names.map Value.string).map Value.fieldText = d.schema.names := by
    rw [List.map_map]
    exact List.map_id _
  obtain ⟨last, before, ⟨r, hrun, hopen, rfl, rfl⟩, hall⟩ := Reader.reads_lines [] hquote hbreak
    hbreak' (List.cons_ne_nil _ d.rows) (List.forall_mem_cons.2 ⟨hheader, values⟩)
  have hread : (Reader.atField [] []).run delimiter quote ("\n".intercalate
      (d.lines (String.singleton delimiter) (some (String.singleton quote)))).toList = some r := by
    rw [String.toList_intercalate, lines, List.map_map]
    exact hrun
  have hrecords : r.all = d.schema.names :: d.rows.map fun row => row.map Value.fieldText := by
    rw [Reader.all, hall, List.map_cons, hnames]
    rfl
  simp only [← Value.fieldText_eq]
  rw [readDelimited, hread, ← hrecords]
  exact if_neg hopen

theorem Dataset.readDelimited_lines_of_quotes :
    let d : Dataset := ⟨⟨[⟨"a,b", .string⟩, ⟨"\"", .bytes⟩], by decide, by decide⟩,
      [[.string "say \"no\",\r\nor not", .bytes [1, 2]], [.null .string],
        [.string "", .boolean true]]⟩
    readDelimited ',' '"'
        ("\n".intercalate (d.lines (String.singleton ',') (some (String.singleton '"')))) =
      some [["a,b", "\""], ["say \"no\",\r\nor not", "[1, 2]"], [""], ["", "true"]] := by
  intro d
  rw [d.readDelimited_lines (by decide) (by decide) (by decide) (by decide) (by decide)]
  rfl

end Tabular
