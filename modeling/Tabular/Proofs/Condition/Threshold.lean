import Tabular.Proofs.Condition.Operators
import Tabular.Proofs.Value.Conversion

namespace Tabular

namespace Standing

variable {α : Type} [LinearOrder α] {a b : α} {op : Operator}

theorem answer_cmp_iff (a t : α) :
    ((order (some (cmp a t))).answer .lessThan = true ↔ a < t) ∧
      ((order (some (cmp a t))).answer .lessOrEqual = true ↔ a ≤ t) ∧
      ((order (some (cmp a t))).answer .greaterThan = true ↔ t < a) ∧
      ((order (some (cmp a t))).answer .greaterOrEqual = true ↔ t ≤ a) := by
  rcases lt_trichotomy a t with h | h | h
  · rw [h.cmp_eq_lt]
    exact ⟨iff_of_true rfl h, iff_of_true rfl h.le, iff_of_false Bool.false_ne_true h.not_gt,
      iff_of_false Bool.false_ne_true h.not_ge⟩
  · rw [h.cmp_eq_eq]
    exact ⟨iff_of_false Bool.false_ne_true h.not_lt, iff_of_true rfl h.le,
      iff_of_false Bool.false_ne_true h.not_gt, iff_of_true rfl h.ge⟩
  · rw [h.cmp_eq_gt]
    exact ⟨iff_of_false Bool.false_ne_true h.not_gt, iff_of_false Bool.false_ne_true h.not_ge,
      iff_of_true rfl h, iff_of_true rfl h.le⟩

/-- With the value growing, what is above the operand stays above it; with the value shrinking, what
is below stays below. -/
theorem answer_mono (h : a ≤ b) (t : α) :
    (op = .greaterThan ∨ op = .greaterOrEqual → (order (some (cmp a t))).answer op = true →
        (order (some (cmp b t))).answer op = true) ∧
      (op = .lessThan ∨ op = .lessOrEqual → (order (some (cmp b t))).answer op = true →
        (order (some (cmp a t))).answer op = true) := by
  obtain ⟨hlt, hle, hgt, hge⟩ := answer_cmp_iff a t
  obtain ⟨hlt', hle', hgt', hge'⟩ := answer_cmp_iff b t
  constructor
  · rintro (rfl | rfl)
    · rw [hgt, hgt']
      exact fun ha => ha.trans_le h
    · rw [hge, hge']
      exact fun ha => ha.trans h
  · rintro (rfl | rfl)
    · rw [hlt, hlt']
      exact fun hb => h.trans_lt hb
    · rw [hle, hle']
      exact fun hb => h.trans hb

end Standing

namespace ColumnCondition

variable {column : String} {mode : SequenceMode} {op : Operator} {type : ColumnType}
  {c : ColumnCondition} {w x y : Value} {m n : Numeric} {r s : EReal}

theorem evaluate_of_standing {standing : Standing} (hc : c.IsBuilt)
    (h : c.standing x = .ok standing) : c.evaluate x = .ok (standing.answer c.op) := by
  rw [evaluate_eq_standing hc.takesSet, h]
  rfl

/-- A threshold keeps its answer in one direction of the order of numbers, though the value is cut
or rounded before it is compared. -/
theorem threshold_monotone (hc : typed column mode op (.scalar w) type = .ok c)
    (htype : type.isNumeric = true) (hx : x.family? = some .number) (hy : y.family? = some .number)
    (hnan : x.isNaN = false) (hnan' : y.isNaN = false)
    (hle : x.compare y = .ok .lt ∨ x.compare y = .ok .eq) :
    ∃ a b, c.evaluate x = .ok a ∧ c.evaluate y = .ok b ∧
      (op = .greaterThan ∨ op = .greaterOrEqual → a = true → b = true) ∧
      (op = .lessThan ∨ op = .lessOrEqual → b = true → a = true) := by
  obtain ⟨m, hm⟩ := Value.exists_number? hx
  obtain ⟨n, hn⟩ := Value.exists_number? hy
  obtain ⟨r, hr⟩ := Value.exists_extended? hm hnan
  obtain ⟨s, hs⟩ := Value.exists_extended? hn hnan'
  have hrs : r ≤ s := by
    rw [Value.compare_of_number? hm hn, Numeric.compare_eq_cmp hr hs, Except.ok.injEq,
      Except.ok.injEq, cmp_eq_lt_iff, cmp_eq_eq_iff] at hle
    exact le_iff_lt_or_eq.2 hle
  have hbuilt := isBuilt_of_typed hc
  obtain ⟨-, matcher, hmatcher, rfl⟩ := typed_eq_ok.1 hc
  rcases scalar_of_matcher hmatcher htype with ⟨-, k, rfl⟩ | ⟨-, t, rfl, -⟩
  · have hstanding {v : Value} {m : Numeric} (hm : v.number? = some m) :
        standing ⟨column, mode, op, .scalar w, type, .whole k⟩ v =
          .ok (.order (some (cmp m.toInt64.toInt k.toInt))) := by
      rw [standing, Value.toInt64_of_number? hm, cmp_eq_compare]
      rfl
    refine ⟨_, _, evaluate_of_standing hbuilt (hstanding hm),
      evaluate_of_standing hbuilt (hstanding hn), ?_⟩
    exact Standing.answer_mono (Numeric.toInt64_mono hr hs hrs) k.toInt
  · have hstanding {v : Value} {m : Numeric} (hm : v.number? = some m) :
        standing ⟨column, mode, op, .scalar w, type, .real t⟩ v =
          .ok (.order (m.toDouble.compare? t)) := by
      rw [standing, Value.toDouble_of_number? hm]
      rfl
    refine ⟨_, _, evaluate_of_standing hbuilt (hstanding hm),
      evaluate_of_standing hbuilt (hstanding hn), ?_⟩
    obtain ⟨r', s', hr', hs', hrs'⟩ := Numeric.toDouble_mono hr hs hrs
    cases ht : t.isNaN with
    | false =>
      obtain ⟨u, hu⟩ := Binary.exists_extended? ht
      rw [Binary.compare?_eq_cmp hr' hu, Binary.compare?_eq_cmp hs' hu]
      exact Standing.answer_mono hrs' u
    | true =>
      rw [Binary.compare?_eq_none_iff.2 (.inr ht), Binary.compare?_eq_none_iff.2 (.inr ht)]
      exact ⟨fun _ => id, fun _ => id⟩

theorem threshold_monotone_of_negative :
    let negative : Value := .double (Binary.ofBits 1).neg
    negative.compare (.byte 0) = .ok .lt ∧ ∃ c, long "x" .greaterOrEqual 0 = .ok c ∧
      c.evaluate negative = .ok true ∧ c.evaluate (.byte 0) = .ok true := by
  intro negative
  have hc : typed "x" .or .greaterOrEqual (.scalar (.long 0)) .long =
      .ok ⟨"x", .or, .greaterOrEqual, .scalar (.long 0), .long, .whole 0⟩ := rfl
  have hcompare : negative.compare (.byte 0) = .ok .lt :=
    (Value.compare_of_number? rfl rfl).trans (congrArg Except.ok (by decide +kernel))
  have htrue : evaluate ⟨"x", .or, .greaterOrEqual, .scalar (.long 0), .long, .whole 0⟩ negative =
      .ok true := by decide +kernel
  obtain ⟨a, b, ha, hb, hup, -⟩ :=
    threshold_monotone hc rfl rfl rfl (by decide +kernel) rfl (.inl hcompare)
  cases ha.symm.trans htrue
  exact ⟨hcompare, _, hc, htrue, hb.trans (congrArg Except.ok (hup (.inr rfl) rfl))⟩

end ColumnCondition

end Tabular
