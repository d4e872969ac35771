import Tabular.Proofs.Statistics.Description

namespace Tabular

theorem known_map {α β : Type} (f : α → Option β) (s : Multiset α) :
    known (s.map f) = s.filterMap f := by
  rw [known, Multiset.filterMap_map, Function.id_comp]

section Extremes

variable {α β : Type} [DecidableEq α] [LinearOrder β] {order : α → α → Ordering} {D : α → Prop}
  {key : α → β} {s : Multiset α} {better : Ordering} {best : Option α × Nat}

theorem Extremes.Best.extreme (hb : Best order better s best)
    (hkey : ∀ v ∈ s, ∀ w ∈ s, order v w = cmp (key v) (key w)) :
    Extreme (fun m v => cmp v m ≠ better) (s.map key) (best.1.map key) := by
  obtain ⟨_ | m, n⟩ := best
  · rw [hb.1]
    exact Multiset.map_zero key
  · refine ⟨Multiset.mem_map_of_mem key hb.1, fun k hk => ?_⟩
    obtain ⟨v, hv, rfl⟩ := Multiset.mem_map.1 hk
    rw [← hkey v hv m hb.1]
    exact hb.2.1 v hv

/-- Values with one key tie, so that they are equal and counted as one. -/
theorem Extremes.Best.occurrences (hb : Best order better s best) (horder : Orders D order)
    (hs : ∀ v ∈ s, D v) (hkey : ∀ v ∈ s, ∀ w ∈ s, order v w = cmp (key v) (key w)) :
    best.2 = Tabular.occurrences (s.map key) (best.1.map key) := by
  obtain ⟨_ | m, n⟩ := best
  · exact hb.2
  · have hinj : Set.InjOn key {v | v ∈ s} := by
      intro v hv w hw h
      have htie : order v w = .eq := by rw [hkey v hv w hw, h, cmp_self_eq_eq]
      exact horder.eq_of_tie (hs v hv) (hs w hw) htie
    exact hb.2.2.trans (Multiset.count_map_eq_count key s hinj m hb.1).symm

theorem Extremes.Summarizes.describes {e : Extremes α} (h : e.Summarizes order s)
    (horder : Orders D order) (hs : ∀ v ∈ s, D v) (key : α → β)
    (hkey : ∀ v ∈ s, ∀ w ∈ s, order v w = cmp (key v) (key w)) :
    Extreme (· ≤ ·) (s.map key) (e.min.map key) ∧ Extreme (· ≥ ·) (s.map key) (e.max.map key) ∧
      e.countMin = Tabular.occurrences (s.map key) (e.min.map key) ∧
      e.countMax = Tabular.occurrences (s.map key) (e.max.map key) := by
  refine ⟨(h.min.extreme hkey).imp fun m v hne => ?_, (h.max.extreme hkey).imp fun m v hne => ?_,
    h.min.occurrences horder hs hkey, h.max.occurrences horder hs hkey⟩
  · exact not_lt.1 (mt (cmp_eq_lt_iff v m).2 hne)
  · exact not_lt.1 (mt (cmp_eq_gt_iff v m).2 hne)

end Extremes

theorem countP_map_of_iff {α β : Type} {f : α → β} {s : Multiset α} {p : α → Prop} {q : β → Prop}
    [DecidablePred p] [DecidablePred q] (h : ∀ v ∈ s, p v ↔ q (f v)) :
    s.countP p = (s.map f).countP q := by
  rw [Multiset.countP_map, ← Multiset.countP_eq_card_filter]
  exact Multiset.countP_congr rfl fun v hv => propext (h v hv)

theorem card_eq_countP_signs {α : Type} [LinearOrder α] [Zero α] (numbers : Multiset α) :
    numbers.card = numbers.countP (· = 0) + numbers.countP (0 < ·) + numbers.countP (· < 0) := by
  induction numbers using Multiset.induction_on with
  | empty => rfl
  | cons x numbers ih =>
    simp only [Multiset.card_cons, Multiset.countP_cons, ih]
    rcases lt_trichotomy x 0 with h | h | h
    · simp only [h.ne, h.not_gt, h, ↓reduceIte]
      omega
    · simp only [h, lt_irrefl, ↓reduceIte]
      omega
    · simp only [h.ne', h.not_gt, h, ↓reduceIte]
      omega

section Readers

variable {α β : Type} {type : ColumnType} {s : Multiset Value} {read : Value → Option α}

/-- What is read from every value that a column holds is missing where the value is. -/
theorem eq_none_iff_isNull (hnull : ∀ t, read (.null t) = none)
    (hread : ∀ v, type.Stores v → (read v).isSome = true) {v : Value}
    (hv : type.accepts v = true) : read v = none ↔ v.isNull = true := by
  rcases ColumnType.accepts_iff.1 hv with rfl | h
  · exact iff_of_true (hnull type) rfl
  · have hsome := hread v h
    rw [h.isNull]
    refine iff_of_false ?_ Bool.false_ne_true
    rintro hnone
    rw [hnone] at hsome
    cases hsome

variable (hread : ∀ v ∈ s, read v = none ↔ v.isNull = true)

include hread

theorem count_none_map [DecidableEq α] :
    (s.map read).count none = s.countP fun v => v.isNull = true :=
  (countP_map_of_iff fun v hv => (hread v hv).symm.trans eq_comm).symm

theorem card_eq_missing_add_card :
    s.card = (s.countP fun v => v.isNull = true) + (s.filterMap read).card := by
  induction s using Multiset.induction_on with
  | empty => rfl
  | cons v s ih =>
    have hv := hread v (Multiset.mem_cons_self v s)
    have htail := ih fun w hw => hread w (Multiset.mem_cons_of_mem hw)
    rw [Multiset.card_cons, Multiset.countP_cons, htail]
    cases h : read v with
    | none =>
      rw [Multiset.filterMap_cons_none v s h, if_pos (hv.1 h)]
      omega
    | some a =>
      have hnull : ¬v.isNull = true := fun hn => Option.some_ne_none a (h.symm.trans (hv.2 hn))
      rw [Multiset.filterMap_cons_some read v s h, if_neg hnull, Multiset.card_cons]
      omega

end Readers

theorem countP_filterMap {α β : Type} {read : α → Option β} {p : α → Prop} {q : β → Prop}
    [DecidablePred p] [DecidablePred q] {s : Multiset α}
    (h : ∀ v ∈ s, p v ↔ ∃ x, read v = some x ∧ q x) :
    (s.filterMap read).countP q = s.countP p := by
  induction s using Multiset.induction_on with
  | empty => rfl
  | cons v s ih =>
    have hv := h v (Multiset.mem_cons_self v s)
    have htail := ih fun w hw => h w (Multiset.mem_cons_of_mem hw)
    rw [Multiset.countP_cons]
    cases hread : read v with
    | none =>
      have hp : ¬p v := by simp [hv, hread]
      rw [Multiset.filterMap_cons_none v s hread, if_neg hp, htail, Nat.add_zero]
    | some x =>
      have hp : p v ↔ q x := by simp [hv, hread]
      rw [Multiset.filterMap_cons_some read v s hread, Multiset.countP_cons, htail]
      simp only [hp]

theorem map_known_map {α β γ : Type} {read : α → Option β} {key : β → γ} {spec : α → Option γ}
    {s : Multiset α} (h : ∀ v ∈ s, spec v = (read v).map key) :
    (known (s.map read)).map key = s.filterMap spec := by
  rw [known_map, Multiset.map_filterMap]
  induction s using Quot.inductionOn with | h xs =>
  exact congrArg _ (List.filterMap_congr fun v hv => (h v hv).symm)

theorem Value.integer?_eq_map_whole? {type : ColumnType} {v : Value}
    (mem : type ∈ [.integer, .long, .byte]) (hv : type.accepts v = true) :
    v.integer? = v.whole?.map Int64.toInt := by
  rcases ColumnType.accepts_iff.1 hv with rfl | h
  · rfl
  · cases h with
    | integer n | long n | byte n =>
      simp [integer?, whole?, toInt64, numeric, Except.toOption]
    | _ => simp at mem

namespace IntegerCounter

variable {s : Multiset Value} {c : IntegerCounter}

theorem Summarizes.describes (h : c.Summarizes (s.map Value.whole?))
    (hread : ∀ v ∈ s, v.whole? = none ↔ v.isNull = true)
    (hinteger : ∀ v ∈ s, v.integer? = v.whole?.map Int64.toInt) (type : ColumnType) :
    (c.report type).Describes s := by
  have hnumbers := map_known_map hinteger
  have hpresent : ∀ v ∈ s, v.integer? = none ↔ v.isNull = true := by
    intro v hv
    rw [hinteger v hv, Option.map_eq_none_iff]
    exact hread v hv
  have hextremes := h.extremes.describes orders_orderInt64 (fun _ _ => trivial) Int64.toInt
    fun v _ w _ => (cmp_eq_compare v.toInt w.toInt).symm
  rw [hnumbers] at hextremes
  obtain ⟨hmin, hmax, hcountMin, hcountMax⟩ := hextremes
  have hzero : c.zero = (s.filterMap Value.integer?).countP (· = 0) := by
    rw [h.zero, ← hnumbers]
    exact countP_map_of_iff fun _ _ => Iff.rfl
  have hpositive : c.positive = (s.filterMap Value.integer?).countP (0 < ·) := by
    rw [h.positive, ← hnumbers]
    exact countP_map_of_iff fun _ _ => Iff.rfl
  have hnegative : c.negative = (s.filterMap Value.integer?).countP (· < 0) := by
    rw [h.negative, ← hnumbers]
    exact countP_map_of_iff fun _ _ => Iff.rfl
  have hmissing : c.missing = s.countP fun v => v.isNull = true :=
    h.missing.trans (count_none_map hread)
  have htotal : c.total = s.card := h.total.trans (Multiset.card_map _ s)
  have hcard := card_eq_missing_add_card hpresent
  have hsigns := card_eq_countP_signs (s.filterMap Value.integer?)
  exact {
    total := htotal
    missing := hmissing
    numbers := ⟨hzero, hpositive, hnegative, hmin, hmax, hcountMin, hcountMax⟩
    sum := by
      rw [← hnumbers]
      exact h.sum
    partition := by
      simp only [report]
      omega }

end IntegerCounter

namespace DoubleCounter

variable {s : Multiset Value} {c : DoubleCounter}

/-- The extended real number that a number stands for; a NaN counts as zero. -/
noncomputable def key (x : Double) : EReal := x.extended?.getD 0

theorem extended?_eq_key {x : Double} (h : x.IsCanonical) : x.extended? = some (key x) := by
  obtain ⟨r, hr⟩ := Binary.exists_extended? h.1
  rw [key, hr, Option.getD_some]

theorem map_key_numbers (h : ∀ v ∈ s, v.extended? = v.real?.bind Binary.extended?) :
    (numbers (s.map Value.real?)).map key = s.filterMap Value.extended? := by
  induction s using Multiset.induction_on with
  | empty => rfl
  | cons v s ih =>
    have hv := h v (Multiset.mem_cons_self v s)
    have htail := ih fun w hw => h w (Multiset.mem_cons_of_mem hw)
    rw [Multiset.map_cons]
    cases hreal : v.real? with
    | none =>
      rw [hreal, Option.bind_none] at hv
      rw [numbers_cons_none, htail, Multiset.filterMap_cons_none v s hv]
    | some x =>
      rw [hreal, Option.bind_some] at hv
      cases hnan : x.isNaN with
      | true =>
        rw [Binary.extended?_of_isNaN hnan] at hv
        rw [numbers_cons_nan hnan, htail, Multiset.filterMap_cons_none v s hv]
      | false =>
        have hkey := extended?_eq_key (Binary.isCanonical_add_zero hnan)
        rw [Binary.add_zero_extended? hnan, ← hv] at hkey
        rw [numbers_cons hnan, Multiset.map_cons, htail,
          Multiset.filterMap_cons_some Value.extended? v s hkey]

theorem Summarizes.describes (h : c.Summarizes (s.map Value.real?))
    (hread : ∀ v ∈ s, v.real? = none ↔ v.isNull = true)
    (hnan : ∀ v ∈ s, v.isNaN = true ↔ ∃ x, v.real? = some x ∧ x.isNaN = true)
    (hextended : ∀ v ∈ s, v.extended? = v.real?.bind Binary.extended?) (type : ColumnType) :
    (c.report type).Describes s := by
  have hnumbers := map_key_numbers hextended
  have hcanonical : ∀ x ∈ numbers (s.map Value.real?), x.IsCanonical :=
    fun _ hx => isCanonical_of_mem_numbers hx
  have hkey : ∀ x ∈ numbers (s.map Value.real?), x.extended? = some (key x) :=
    fun x hx => extended?_eq_key (hcanonical x hx)
  have hextremes := h.extremes.describes orders_compareReals hcanonical key
    fun v hv w hw => compareReals_eq_cmp (hkey v hv) (hkey w hw)
  have hmember : ∀ x, c.extremes.min = some x ∨ c.extremes.max = some x →
      x ∈ numbers (s.map Value.real?) := by
    rintro x (hx | hx)
    · have hbest := h.extremes.min
      rw [hx] at hbest
      exact hbest.1
    · have hbest := h.extremes.max
      rw [hx] at hbest
      exact hbest.1
  have hbind : ∀ best : Option Double, (∀ x, best = some x → x ∈ numbers (s.map Value.real?)) →
      best.bind Binary.extended? = best.map key := by
    rintro (_ | x) hbest
    · rfl
    · rw [Option.bind_some, hkey x (hbest x rfl), Option.map_some]
  rw [hnumbers, ← hbind c.extremes.min fun x hx => hmember x (.inl hx),
    ← hbind c.extremes.max fun x hx => hmember x (.inr hx)] at hextremes
  obtain ⟨hmin, hmax, hcountMin, hcountMax⟩ := hextremes
  have hzero : c.zero = (s.filterMap Value.extended?).countP (· = 0) := by
    rw [h.zero, ← hnumbers]
    exact countP_map_of_iff fun x hx => Binary.isZero_iff (hkey x hx)
  have hpositive : c.positive = (s.filterMap Value.extended?).countP (0 < ·) := by
    rw [h.positive, ← hnumbers]
    exact countP_map_of_iff fun x hx => Binary.isPositive_iff (hkey x hx)
  have hnegative : c.negative = (s.filterMap Value.extended?).countP (· < 0) := by
    rw [h.negative, ← hnumbers]
    refine countP_map_of_iff fun x hx => ?_
    rw [Bool.or_eq_true_iff, Binary.isZero_iff (hkey x hx), Binary.isPositive_iff (hkey x hx),
      not_or, not_lt]
    exact ⟨fun ⟨hne, hle⟩ => lt_of_le_of_ne hle hne, fun hlt => ⟨hlt.ne, hlt.le⟩⟩
  have hmissing : c.missing = s.countP fun v => v.isNull = true :=
    h.missing.trans (count_none_map hread)
  have hnans : c.nan = s.countP fun v => v.isNaN = true := by
    rw [h.nan, known_map, countP_filterMap hnan]
  have htotal : c.total = s.card := h.total.trans (Multiset.card_map _ s)
  have hcard := card_eq_missing_add_card hread
  have hsigns := card_eq_countP_signs (s.filterMap Value.extended?)
  have hsplit := Multiset.card_eq_countP_add_countP (fun x : Double => x.isNaN = true)
    (s.filterMap Value.real?)
  have hnot : (s.filterMap Value.extended?).card =
      (s.filterMap Value.real?).countP fun x => ¬x.isNaN = true := by
    rw [← hnumbers, Multiset.card_map, numbers, Multiset.card_map, known_map,
      ← Multiset.countP_eq_card_filter]
    simp only [Bool.not_eq_true]
  rw [countP_filterMap hnan] at hsplit
  exact {
    total := htotal
    missing := hmissing
    nan := hnans
    numbers := ⟨hzero, hpositive, hnegative, hmin, hmax, hcountMin, hcountMax⟩
    canonical := fun x hx => hcanonical x (hmember x hx)
    partition := by
      simp only [report]
      omega }

end DoubleCounter

/-- The reported length of all texts is the exact one in a word. -/
theorem StringCounter.Summarizes.report_sumLength {s : Multiset Value} {c : StringCounter}
    (h : c.Summarizes (s.map Value.text?)) :
    c.report.sumLength.toNat = ColumnType.string.totalLength s % 2 ^ 64 := by
  rw [report, h.sumLength, known_map, UInt64.toNat_ofNat', ColumnType.totalLength]

theorem StringCounter.Summarizes.describes {s : Multiset Value} {c : StringCounter}
    (h : c.Summarizes (s.map Value.text?)) (hread : ∀ v ∈ s, v.text? = none ↔ v.isNull = true)
    (short : ColumnType.string.totalLength s < 2 ^ 64) : c.report.Describes s := by
  have hlengths := h.lengths.describes orders_orderNat (fun _ _ => trivial) id
    fun v _ w _ => (cmp_eq_compare v w).symm
  rw [known_map, Multiset.map_id, Option.map_id] at hlengths
  obtain ⟨hmin, hmax, hcountMin, hcountMax⟩ := hlengths
  exact {
    total := h.total.trans (Multiset.card_map _ s)
    missing := h.missing.trans (count_none_map hread)
    empty := by
      rw [report, h.empties, known_map, Multiset.count]
      exact Multiset.countP_congr rfl fun text _ =>
        propext (String.length_eq_zero_iff.trans eq_comm)
    minLength := hmin
    maxLength := hmax
    countMinLength := hcountMin
    countMaxLength := hcountMax
    sumLength := h.report_sumLength.trans (Nat.mod_eq_of_lt short) }

theorem BytesCounter.Summarizes.report_bytes {s : Multiset Value} {c : BytesCounter}
    (h : c.Summarizes (s.map Value.bytes?)) :
    c.report.bytes.toNat = ColumnType.bytes.totalLength s % 2 ^ 64 := by
  rw [report, h.bytes, known_map, UInt64.toNat_ofNat', ColumnType.totalLength]

theorem BytesCounter.Summarizes.describes {s : Multiset Value} {c : BytesCounter}
    (h : c.Summarizes (s.map Value.bytes?)) (hread : ∀ v ∈ s, v.bytes? = none ↔ v.isNull = true)
    (short : ColumnType.bytes.totalLength s < 2 ^ 64) : c.report.Describes s := by
  have hlengths := h.lengths.describes orders_orderNat (fun _ _ => trivial) id
    fun v _ w _ => (cmp_eq_compare v w).symm
  rw [known_map, Multiset.map_id, Option.map_id] at hlengths
  exact {
    total := h.total.trans (Multiset.card_map _ s)
    missing := h.missing.trans (count_none_map hread)
    bytes := h.report_bytes.trans (Nat.mod_eq_of_lt short)
    minLength := hlengths.1
    maxLength := hlengths.2.1 }

theorem count_some_map {α β : Type} [DecidableEq β] (read : α → Option β) (b : β)
    (s : Multiset α) : (s.map read).count (some b) = (s.filterMap read).count b := by
  rw [← known_map]
  refine (countP_filterMap fun v _ => ?_).symm
  simp [eq_comm]

theorem card_eq_count_booleans (values : Multiset Bool) :
    values.card = values.count .true + values.count .false := by
  induction values using Multiset.induction_on with
  | empty => rfl
  | cons b values ih =>
    rw [Multiset.card_cons, Multiset.count_cons, Multiset.count_cons, ih]
    cases b <;> simp <;> omega

theorem BooleanCounter.Summarizes.describes {s : Multiset Value} {c : BooleanCounter}
    (h : c.Summarizes (s.map Value.boolean?))
    (hread : ∀ v ∈ s, v.boolean? = none ↔ v.isNull = .true) : c.report.Describes s := by
  have hcount : ∀ b, (s.map Value.boolean?).count (some b) = s.count (.boolean b) := by
    intro b
    refine (countP_map_of_iff fun v _ => ?_).symm
    cases v <;> simp [Value.boolean?]
  have hcard := card_eq_count_booleans (s.filterMap Value.boolean?)
  rw [← count_some_map, ← count_some_map, ← h.true, ← h.false] at hcard
  have hmissing := h.missing.trans (count_none_map hread)
  have htotal := card_eq_missing_add_card hread
  exact {
    total := by
      rw [htotal, hcard, ← hmissing]
      exact Nat.add_comm _ _
    missing := hmissing
    true := h.true.trans (hcount .true)
    false := h.false.trans (hcount .false) }

/-- Every label as often as it has been counted. -/
def labelsOf : List (String × Nat) → Multiset String
  | [] => 0
  | p :: counts => Multiset.replicate p.2 p.1 + labelsOf counts

theorem count_labelsOf (label : String) (counts : List (String × Nat)) :
    (labelsOf counts).count label = countOf label counts := by
  induction counts with
  | nil => rfl
  | cons p counts ih =>
    rw [labelsOf, Multiset.count_add, Multiset.count_replicate, ih, countOf_cons]

theorem foldl_counts (n : Nat) (counts : List (String × Nat)) :
    counts.foldl (fun n p => n + p.2) n = n + (labelsOf counts).card := by
  induction counts generalizing n with
  | nil => rfl
  | cons p counts ih =>
    rw [List.foldl_cons, ih, labelsOf, Multiset.card_add, Multiset.card_replicate, Nat.add_assoc]

theorem exists_of_countOf {label : String} {counts : List (String × Nat)}
    (h : 0 < countOf label counts) : ∃ p ∈ counts, p.1 = label := by
  by_contra hnone
  have hzero : countOf label counts = 0 :=
    countOf_eq_zero fun p hp heq => hnone ⟨p, hp, heq⟩
  omega

theorem Ascending.countOf_of_mem {counts : List (String × Nat)} (h : Ascending counts)
    {p : String × Nat} (hp : p ∈ counts) : countOf p.1 counts = p.2 := by
  induction counts with
  | nil => cases hp
  | cons q counts ih =>
    rcases List.mem_cons.1 hp with rfl | hp
    · exact h.countOf_head
    · have hlt := List.rel_of_pairwise_cons h.sorted hp
      have hne : q.1 ≠ p.1 := by
        intro heq
        rw [heq, Std.compare_self] at hlt
        cases hlt
      rw [countOf_cons, if_neg hne, Nat.zero_add, ih h.tail hp]

theorem CategoricalCounter.Summarizes.describes {s : Multiset Value} {c : CategoricalCounter}
    (h : c.Summarizes (s.map Value.text?)) (hread : ∀ v ∈ s, v.text? = none ↔ v.isNull = true) :
    c.report.Describes s := by
  have hcounts : ∀ label, countOf label c.counts = (s.filterMap Value.text?).count label :=
    fun label => (h.counts label).trans (count_some_map Value.text? label s)
  have hlabels : labelsOf c.counts = s.filterMap Value.text? := by
    ext label
    rw [count_labelsOf, hcounts]
  have hmissing := h.missing.trans (count_none_map hread)
  exact {
    total := by
      rw [report, foldl_counts, hlabels, hmissing, card_eq_missing_add_card hread]
    missing := hmissing
    counts := by
      intro label n
      rw [← hcounts]
      constructor
      · intro hmem
        exact ⟨h.ascending.positive _ hmem, (h.ascending.countOf_of_mem hmem).symm⟩
      · rintro ⟨hpos, hn⟩
        obtain ⟨p, hmem, rfl⟩ := exists_of_countOf (hn ▸ hpos)
        rw [hn, h.ascending.countOf_of_mem hmem]
        exact hmem
    ascending := h.ascending.sorted }

namespace Counter

variable {type : ColumnType} {s t : Multiset Value} {a b c : Counter} {v : Value}

theorem Collected.typed (h : Collected type s c) : c.type = type := by
  induction h with
  | start => rfl
  | add h hadd ih => exact (type_of_add hadd).trans ih
  | merge ha hb hmerge iha ihb => exact (type_of_merge hmerge).trans iha

theorem Collected.accepted (h : Collected type s c) : ∀ v ∈ s, type.accepts v = true := by
  induction h with
  | start => exact fun v hv => absurd hv (Multiset.notMem_zero v)
  | add h hadd ih =>
    refine Multiset.forall_mem_cons.2 ⟨?_, ih⟩
    rw [← h.typed]
    exact accepts_of_add hadd
  | merge ha hb hmerge iha ihb =>
    intro v hv
    exact (Multiset.mem_add.1 hv).elim (iha v) (ihb v)

theorem Summarizes.describes (h : Summarizes type s c)
    (accepted : ∀ v ∈ s, type.accepts v = true) (short : type.totalLength s < 2 ^ 64) :
    c.report.Describes s type := by
  obtain ⟨typed, hstate⟩ := h
  obtain ⟨kind, state⟩ := c
  have hkind : kind = type := typed
  subst kind
  have read {α : Type} {read : Value → Option α} (hnull : ∀ t, read (.null t) = none)
      (hsome : ∀ v, type.Stores v → (read v).isSome = true) :
      ∀ v ∈ s, read v = none ↔ v.isNull = true :=
    fun v hv => eq_none_iff_isNull hnull hsome (accepted v hv)
  cases type with
  | integer | long | byte =>
    cases hstate with | integer h =>
    refine .integer (by decide) rfl (h.describes (read (fun _ => rfl) ?_) ?_ _)
    · rintro _ ⟨⟩
      rfl
    · exact fun v hv => Value.integer?_eq_map_whole? (by decide) (accepted v hv)
  | float | double =>
    cases hstate with | double h =>
    refine .double (by decide) rfl (h.describes (read (fun _ => rfl) ?_) ?_ ?_ _)
    · rintro _ ⟨⟩
      rfl
    · intro v hv
      rcases ColumnType.accepts_iff.1 (accepted v hv) with rfl | ⟨⟨x⟩⟩
      all_goals simp [Value.isNaN, Value.real?, Value.toDouble, Value.numeric, Except.toOption,
        Binary.convert_isNaN]
    · intro v hv
      rcases ColumnType.accepts_iff.1 (accepted v hv) with rfl | ⟨⟨x⟩⟩
      all_goals simp [Value.extended?, Value.real?, Value.toDouble, Value.numeric,
        Except.toOption, Binary.convert_extended?]
  | string =>
    cases hstate with | string h =>
    refine .string (h.describes (read (fun _ => rfl) ?_) short)
    rintro _ ⟨⟩
    rfl
  | categorical =>
    cases hstate with | categorical h =>
    refine .categorical (h.describes (read (fun _ => rfl) ?_))
    rintro _ ⟨⟩
    rfl
  | bytes =>
    cases hstate with | bytes h =>
    refine .bytes (h.describes (read (fun _ => rfl) ?_) short)
    rintro _ ⟨⟩
    rfl
  | boolean =>
    cases hstate with | boolean h =>
    refine .boolean (h.describes (read (fun _ => rfl) ?_))
    rintro _ ⟨⟩
    rfl

/-- A counter merged with itself, again and again. -/
def doubled (c : Counter) : Nat → Except Error Counter
  | 0 => .ok c
  | n + 1 => do
    let d ← c.doubled n
    d.merge d

end Counter

end Tabular
