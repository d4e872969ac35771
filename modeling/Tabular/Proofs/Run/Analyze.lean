import Tabular.Proofs.Run.Engine
import Tabular.Proofs.Statistics.MergeTree

namespace Tabular

namespace Analysis

variable {schema : Schema} {seen : Multiset Row} {total : Option Analysis} {a : Analysis}

/-- The sequential analysis of rows takes those that pass the check, and fails with the check of the
first that does not. -/
theorem Summarizes.foldlM_addRow (h : a.Summarizes schema.types seen) {rows : List Row}
    (few : (↑rows + seen : Multiset Row).card < 2 ^ 64) :
    Follows (Summarizes schema.types (↑rows + seen)) (rows.forM (check schema.types))
      (rows.foldlM Analysis.addRow a) := by
  have hfold : rows.foldlM Analysis.addRow a =
      (foldRows (some a) schema rows).map (Option.getD · (Analysis.ofSchema schema)) := by
    clear h few
    induction rows generalizing a with
    | nil => rfl
    | cons row rows ih =>
      rw [foldRows, List.foldlM_cons, List.foldlM_cons, fold, Option.getD_some]
      cases a.addRow row with
      | error e => rfl
      | ok b => exact ih
  have hpart : PartSummarizes schema.types seen (some a) := h
  rw [hfold]
  exact (hpart.foldRows few).map fun b hb => hb.getD

/-- Merging the analyses of parts, from the first to the last, is the analysis of all their rows. -/
theorem PartSummarizes.mergeAll (h : PartSummarizes schema.types seen total)
    {parts : List (List Row)} {analyses : List (Option Analysis)}
    (hparts : List.Forall₂ (fun rows : List Row => PartSummarizes schema.types rows) parts analyses)
    (few : (seen + ↑parts.flatten : Multiset Row).card < 2 ^ 64) (position : Nat) (t : Trace) :
    ∃ b, (Engine.mergeAll position total analyses t).result = .ok b ∧
      PartSummarizes schema.types (seen + ↑parts.flatten) b := by
  induction hparts generalizing seen total position t with
  | nil =>
    refine ⟨total, rfl, ?_⟩
    rw [List.flatten_nil, Multiset.coe_nil, add_zero]
    exact h
  | @cons rows a parts analyses hpart hparts ih =>
    rw [List.flatten_cons, ← Multiset.coe_add, ← add_assoc] at few ⊢
    cases a with
    | none =>
      rw [show (rows : Multiset Row) = 0 from hpart, add_zero] at few ⊢
      exact ih h few (position + 1) t
    | some a =>
      have hfew : (seen + ↑rows : Multiset Row).card < 2 ^ 64 := by
        rw [Multiset.card_add] at few
        omega
      obtain ⟨merged, hmerged, hsum⟩ := h.mergeParts hpart hfew
      rw [Engine.mergeAll, hmerged]
      exact ih hsum few (position + 1) _

theorem mapM_foldRows (schema : Schema) (parts : List (List Row))
    (few : parts.flatten.length < 2 ^ 64) :
    Follows (List.Forall₂ (fun rows : List Row => PartSummarizes schema.types rows) parts)
      (parts.flatten.forM (check schema.types)) (parts.mapM (foldRows none schema)) := by
  induction parts with
  | nil => exact .ok .nil
  | cons rows parts ih =>
    rw [List.flatten_cons, List.length_append] at few
    rw [List.flatten_cons, List.forM_eq_forM, List.forM_append, List.mapM_cons]
    have hempty : PartSummarizes schema.types 0 none := rfl
    have hfew : (↑rows + 0 : Multiset Row).card < 2 ^ 64 := by
      rw [add_zero, Multiset.coe_card]
      omega
    have hfirst := hempty.foldRows hfew
    rw [add_zero] at hfirst
    refine hfirst.bind fun a ha => ?_
    exact (ih (by omega)).map fun analyses hall => .cons ha hall

end Analysis

namespace Engine

theorem mergeAll_result (parts : List (Option Analysis)) (total : Option Analysis)
    (position position' : Nat) (t t' : Trace) :
    (mergeAll position total parts t).result = (mergeAll position' total parts t').result := by
  induction parts generalizing total position position' t t' with
  | nil => rfl
  | cons a parts ih =>
    cases a with
    | none => exact ih total _ _ t t'
    | some a =>
      rw [mergeAll, mergeAll]
      cases Analysis.mergeParts total (some a) with
      | error e => rfl
      | ok merged => exact ih merged _ _ _ _

theorem reportAll_result (schema : Schema) (parts : List (Option Analysis)) (t : Trace) :
    (reportAll schema parts t).result = (mergeAll 0 none parts ⟨.empty, []⟩).result >>=
      fun total => (total.getD (Analysis.ofSchema schema)).report schema := by
  rw [reportAll, mergeAll_result parts none 0 0 ⟨.empty, []⟩ t]
  obtain ⟨result, t'⟩ := mergeAll 0 none parts t
  cases result <;> rfl

theorem analyzeChunk_fst (schema : Schema) (rows : List Row) :
    (analyzeChunk schema rows).map Prod.fst = Analysis.foldRows none schema rows := by
  rw [analyzeChunk]
  cases Analysis.foldRows none schema rows <;> rfl

theorem mergeAll_parts {d : Dataset} {size : Nat} (hsize : 0 < size) (few : d.rowCount < 2 ^ 64)
    {analyses : List (Option Analysis)}
    (hall : List.Forall₂ (fun rows : List Row => Analysis.PartSummarizes d.schema.types rows)
      (d.parts size) analyses) (t : Trace) :
    ∃ total, (mergeAll 0 none analyses t).result = .ok total ∧
      Analysis.PartSummarizes d.schema.types ↑d.rows total := by
  have hparts := d.flatten_parts hsize
  have hempty : Analysis.PartSummarizes d.schema.types 0 none := rfl
  have hmerge := hempty.mergeAll hall (by rwa [zero_add, hparts, Multiset.coe_card]) 0 t
  rwa [zero_add, hparts] at hmerge

theorem analyze_result (e : Engine) (he : 0 < e.options.chunkSize) (d : Dataset)
    (few : d.rowCount < 2 ^ 64) (elapsed : Nat) : (e.analyze d elapsed).result = d.analyze := by
  rw [analyze, run_result e d (reportAll_result d.schema), mapM_chunkResult, Dataset.analyze]
  simp only [analyzeChunk_fst]
  have hparts := d.flatten_parts he
  have hstart := Analysis.Summarizes.ofSchema d.schema
  have hfew : (↑d.rows + 0 : Multiset Row).card < 2 ^ 64 := by
    rwa [add_zero, Multiset.coe_card]
  have hseq := hstart.foldlM_addRow hfew
  have hchunks := Analysis.mapM_foldRows d.schema (d.parts e.options.chunkSize) (by rwa [hparts])
  rw [hparts] at hchunks
  cases hcheck : d.rows.forM (Analysis.check d.schema.types) with
  | error err => rw [hchunks.eq_error_iff.2 hcheck, hseq.eq_error_iff.2 hcheck]; rfl
  | ok _ =>
    obtain ⟨analyses, hmap, hall⟩ := hchunks.exists_of_ok hcheck
    obtain ⟨a, ha, has⟩ := hseq.exists_of_ok hcheck
    obtain ⟨total, htotal, hsum⟩ := mergeAll_parts he few hall ⟨.empty, []⟩
    rw [add_zero] at has
    rw [hmap, ha, ← hsum.getD.unique has]
    change (mergeAll 0 none analyses ⟨.empty, []⟩).result >>= _ = _
    rw [htotal]
    rfl

end Engine

theorem failsWith_check (schema : Schema) :
    FailsWith (Analysis.ofSchema schema).addRow fun rows =>
      rows.forM (Analysis.check schema.types) := by
  have hfew : ∀ row : Row, (row ::ₘ (0 : Multiset Row)).card < 2 ^ 64 := by
    intro row
    rw [Multiset.card_cons, Multiset.card_zero]
    decide
  have hrow := fun row => (Analysis.Summarizes.ofSchema schema).addRow (hfew row)
  have hchecks := failsWith_forM (Analysis.check schema.types)
  refine ⟨hchecks.nil, fun rows herror => ?_, fun rows e hok => ?_⟩
  · exact hchecks.error rows ((hrow _).eq_error_iff.1 herror)
  · exact hchecks.ok rows e ((hrow _).check_eq_ok hok)

theorem Dataset.analyze_eq_error (d : Dataset) (few : d.rowCount < 2 ^ 64) (err : Error) :
    d.analyze = .error err ↔ FirstError (Analysis.ofSchema d.schema).addRow d.rows err := by
  have hfew : (↑d.rows + 0 : Multiset Row).card < 2 ^ 64 := by
    rwa [add_zero, Multiset.coe_card]
  have hseq := (Analysis.Summarizes.ofSchema d.schema).foldlM_addRow hfew
  rw [← (failsWith_check d.schema).iff, Dataset.analyze]
  cases hcheck : d.rows.forM (Analysis.check d.schema.types) with
  | error e =>
    rw [hseq.eq_error_iff.2 hcheck]
    exact error_eq_error
  | ok _ =>
    obtain ⟨a, ha, hsum⟩ := hseq.exists_of_ok hcheck
    obtain ⟨report, hreport⟩ := hsum.report_eq_ok
    rw [ha]
    change a.report d.schema = _ ↔ _
    rw [hreport]
    exact ok_eq_error

end Tabular
