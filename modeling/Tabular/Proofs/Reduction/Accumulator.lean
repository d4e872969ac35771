import Tabular.Proofs.Schema
import Tabular.Reduction.Accumulator

namespace Tabular.Accumulator

/-- What an accumulator holds can be finished to a value of the output type. -/
def Fits (input output : ColumnType) : Accumulator → Prop
  | count _ | countUnique _ | wholeSum _ => output = .long
  | realSum _ | mean _ _ => output = .double
  | extreme _ v | first v | last v => output = input ∧ ∀ w, v = some w → input.accepts w = true

variable {input output : ColumnType} {acc acc' : Accumulator} {v : Value}

theorem fits_start {r : Reduction} (h : r.outputType input = .ok output) :
    (start r input).Fits input output := by
  cases r with
  | count | countUnique =>
    cases h
    rfl
  | sum =>
    simp only [Reduction.outputType] at h
    split at h
    · cases h
      cases hfloating : input.isFloating <;> simp [start, Fits, hfloating]
    · cases h
  | mean =>
    simp only [Reduction.outputType] at h
    split at h
    · cases h
      rfl
    · cases h
  | min | max =>
    simp only [Reduction.outputType] at h
    split at h
    · cases h
    · cases h
      exact ⟨rfl, fun w hw => absurd hw.symm (Option.some_ne_none w)⟩
  | first | last =>
    cases h
    exact ⟨rfl, fun w hw => absurd hw.symm (Option.some_ne_none w)⟩

theorem fits_addPresent (h : acc.Fits input output) (hv : input.accepts v = true)
    (hadd : acc.addPresent v = .ok acc') : acc'.Fits input output := by
  have hsome : ∀ w, some v = some w → input.accepts w = true := by
    rintro w hw
    cases hw
    exact hv
  cases acc with
  | count n | countUnique seen =>
    cases hadd
    exact h
  | wholeSum sum =>
    cases sum with
    | none =>
      obtain ⟨n, -, hadd⟩ := bind_eq_ok.1 hadd
      cases hadd
      exact h
    | some a =>
      obtain ⟨n, -, hadd⟩ := bind_eq_ok.1 hadd
      obtain ⟨m, -, hadd⟩ := bind_eq_ok.1 hadd
      cases hadd
      exact h
  | realSum sum =>
    obtain ⟨x, -, hadd⟩ := bind_eq_ok.1 hadd
    cases hadd
    exact h
  | mean sum n =>
    obtain ⟨x, -, hadd⟩ := bind_eq_ok.1 hadd
    cases hadd
    exact h
  | extreme keep best =>
    cases best with
    | none =>
      cases hadd
      exact ⟨h.1, hsome⟩
    | some b =>
      obtain ⟨order, -, hadd⟩ := bind_eq_ok.1 hadd
      cases hadd
      refine ⟨h.1, fun w hw => ?_⟩
      split at hw
      · exact hsome w hw
      · exact h.2 w hw
  | first u =>
    cases u with
    | none =>
      cases hadd
      exact ⟨h.1, hsome⟩
    | some u =>
      cases hadd
      exact h
  | last u =>
    cases hadd
    exact ⟨h.1, hsome⟩

theorem fits_add (h : acc.Fits input output) (hv : input.accepts v = true)
    (hadd : acc.add v = .ok acc') : acc'.Fits input output := by
  rw [add.eq_def] at hadd
  split at hadd
  · cases hadd
    exact h
  · split at hadd
    · cases hadd
      exact h
    · exact fits_addPresent h hv hadd

theorem accepts_getD {v : Option Value} (h : output = input ∧ ∀ w, v = some w →
    input.accepts w = true) : output.accepts (v.getD (.null output)) = true := by
  obtain ⟨rfl, hv⟩ := h
  cases v with
  | none => exact output.accepts_null
  | some w => exact hv w rfl

theorem accepts_finish (h : acc.Fits input output) : output.accepts (acc.finish output) = true := by
  cases acc with
  | count n | countUnique seen =>
    cases h
    rfl
  | wholeSum sum =>
    cases h
    cases sum <;> rfl
  | realSum sum =>
    cases h
    cases sum <;> rfl
  | mean sum n =>
    cases h
    rw [finish]
    split <;> rfl
  | extreme keep v => exact accepts_getD h
  | first v => exact accepts_getD h
  | last v => exact accepts_getD h

end Tabular.Accumulator
