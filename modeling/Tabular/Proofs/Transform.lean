import Tabular.Proofs.Schema
import Tabular.Proofs.Transform.Replacement

namespace Tabular

namespace Dataset

variable {d out : Dataset}

theorem Valid.filterRows (h : d.Valid) (p : Row → Bool) : (d.filterRows p).Valid :=
  fun row hrow => h row (List.mem_of_mem_filter hrow)

theorem Valid.retain (h : d.Valid) {c : Condition} {keep : Bool}
    (hout : d.retain c keep = .ok out) : out.Valid := by
  obtain ⟨b, -, -, rfl⟩ := retain_eq_ok.1 hout
  exact fun row hrow => h row (List.mem_of_mem_filter hrow)

/-- Changed rows are checked, whether those of the dataset fit or not. -/
theorem valid_of_mapRows {f : Row → Row} (hout : d.mapRows f = .ok out) : out.Valid := by
  rw [Dataset.mapRows] at hout
  obtain ⟨rows, hrows, hout⟩ := bind_eq_ok.1 hout
  cases hout
  intro made hmade
  obtain ⟨row, -, hmade⟩ := exists_of_mapM hrows made hmade
  obtain ⟨_, hvalid, rfl⟩ := map_eq_ok.1 hmade
  exact Schema.validateRow_eq_ok.1 hvalid

theorem Valid.replaceWhere (h : d.Valid) {column : String} {v : Value} {c : Condition}
    (hout : d.replaceWhere column v c = .ok out) : out.Valid := by
  obtain ⟨i, f, b, rows, hcolumn, haccepts, -, hrows, rfl⟩ := replaceWhere_eq_ok.1 hout
  have htype : d.schema.types[i]? = some f.type := by
    rw [d.schema.types_getElem?, (Schema.requireColumn_eq_ok.1 hcolumn).2, Option.map_some]
  intro made hmade
  obtain ⟨row, hrow, hmade⟩ := exists_of_mapM hrows made hmade
  rcases BoundCondition.replaceRow_eq_ok.1 hmade with ⟨-, rfl⟩ | ⟨-, -, rfl⟩
  · exact h made hrow
  · exact (h row hrow).set htype haccepts

end Dataset

end Tabular
