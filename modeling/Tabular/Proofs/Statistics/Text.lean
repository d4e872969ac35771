import Tabular.Proofs.Statistics.Integer
import Tabular.Proofs.Statistics.Labels

namespace Tabular

theorem orders_orderNat : Extremes.Orders (fun _ => True) orderNat := by
  apply Extremes.orders_of_key Int.ofNat
  · intro a b _ _
    rw [orderNat, Nat.compare_eq_ite_lt, Int.compare_eq_ite_lt]
    simp only [Int.ofNat_eq_natCast, Int.ofNat_lt]
  · intro a b _ _ h
    exact Int.ofNat.inj h

namespace StringCounter

/-- A counter holds the statistics of some texts and missing texts. -/
structure Summarizes (c : StringCounter) (s : Multiset (Option String)) : Prop where
  total : c.total = s.card
  missing : c.missing = s.count none
  empties : c.empties = (known s).countP fun text => text.length = 0
  lengths : c.lengths.Summarizes orderNat ((known s).map String.length)
  sumLength : c.sumLength = .ofNat ((known s).map String.length).sum

theorem Summarizes.empty : Summarizes .empty 0 where
  total := rfl
  missing := rfl
  empties := rfl
  lengths := .empty
  sumLength := rfl

theorem Summarizes.unique {c d : StringCounter} {s : Multiset (Option String)}
    (hc : c.Summarizes s) (hd : d.Summarizes s) : c = d := by
  have hlengths := hc.lengths.unique orders_orderNat (fun _ _ => trivial) hd.lengths
  obtain ⟨total, missing, empties, lengths, sumLength⟩ := c
  rw [mk.injEq]
  exact ⟨hc.total.trans hd.total.symm, hc.missing.trans hd.missing.symm,
    hc.empties.trans hd.empties.symm, hlengths, hc.sumLength.trans hd.sumLength.symm⟩

theorem Summarizes.addMissing {c : StringCounter} {s : Multiset (Option String)}
    (h : c.Summarizes s) : (c.add none).Summarizes (none ::ₘ s) where
  total := by rw [Multiset.card_cons, ← h.total, add]
  missing := by rw [Multiset.count_cons_self, ← h.missing, add]
  empties := known_cons_none s ▸ h.empties
  lengths := known_cons_none s ▸ h.lengths
  sumLength := known_cons_none s ▸ h.sumLength

theorem Summarizes.addText {c : StringCounter} {s : Multiset (Option String)}
    (h : c.Summarizes s) (text : String) : (c.add (some text)).Summarizes (some text ::ₘ s) where
  total := by rw [Multiset.card_cons, ← h.total, add]
  missing := by rw [Multiset.count_cons_of_ne (Option.some_ne_none text).symm, ← h.missing, add]
  empties := by
    rw [known_cons_some]
    exact succ_if_eq_countP h.empties text
  lengths := by
    rw [known_cons_some, Multiset.map_cons]
    exact h.lengths.observe orders_orderNat (fun _ _ => trivial) trivial
  sumLength := by
    rw [known_cons_some, Multiset.map_cons, Multiset.sum_cons, UInt64.ofNat_add, ← h.sumLength]
    exact UInt64.add_comm _ _

theorem Summarizes.add {c : StringCounter} {s : Multiset (Option String)} (h : c.Summarizes s)
    (text : Option String) : (c.add text).Summarizes (text ::ₘ s) := by
  cases text with
  | none => exact h.addMissing
  | some text => exact h.addText text

theorem Summarizes.merge {a b : StringCounter} {s t : Multiset (Option String)}
    (ha : a.Summarizes s) (hb : b.Summarizes t) : (a.merge b).Summarizes (s + t) where
  total := by rw [Multiset.card_add, ← ha.total, ← hb.total, StringCounter.merge]
  missing := by rw [Multiset.count_add, ← ha.missing, ← hb.missing, StringCounter.merge]
  empties := by
    rw [known_add, Multiset.countP_add, ← ha.empties, ← hb.empties, StringCounter.merge]
  lengths := by
    rw [known_add, Multiset.map_add]
    exact ha.lengths.merge orders_orderNat (fun _ _ => trivial) (fun _ _ => trivial) hb.lengths
  sumLength := by
    rw [known_add, Multiset.map_add, Multiset.sum_add, UInt64.ofNat_add, ← ha.sumLength,
      ← hb.sumLength, StringCounter.merge]

end StringCounter

namespace CategoricalCounter

/-- A counter holds the number of occurrences of every label. -/
structure Summarizes (c : CategoricalCounter) (s : Multiset (Option String)) : Prop where
  missing : c.missing = s.count none
  ascending : Ascending c.counts
  counts : ∀ label, countOf label c.counts = s.count (some label)

theorem Summarizes.empty : Summarizes .empty 0 where
  missing := rfl
  ascending := .nil
  counts _ := rfl

theorem Summarizes.unique {c d : CategoricalCounter} {s : Multiset (Option String)}
    (hc : c.Summarizes s) (hd : d.Summarizes s) : c = d := by
  have hcounts := hc.ascending.unique hd.ascending fun label =>
    (hc.counts label).trans (hd.counts label).symm
  obtain ⟨missing, counts⟩ := c
  rw [mk.injEq]
  exact ⟨hc.missing.trans hd.missing.symm, hcounts⟩

theorem Summarizes.add {c : CategoricalCounter} {s : Multiset (Option String)}
    (h : c.Summarizes s) (label : Option String) : (c.add label).Summarizes (label ::ₘ s) := by
  cases label with
  | none =>
    refine ⟨?_, h.ascending, fun label => ?_⟩
    · rw [Multiset.count_cons_self, ← h.missing, CategoricalCounter.add]
    · rw [Multiset.count_cons_of_ne (Option.some_ne_none label), ← h.counts]
      rfl
  | some label =>
    refine ⟨?_, h.ascending.addCount label Nat.one_pos, fun other => ?_⟩
    · rw [Multiset.count_cons_of_ne (Option.some_ne_none label).symm, ← h.missing,
        CategoricalCounter.add]
    · rw [Multiset.count_cons, ← h.counts, CategoricalCounter.add]
      simp only [countOf_addCount, Option.some.injEq, eq_comm]

theorem Summarizes.merge {a b : CategoricalCounter} {s t : Multiset (Option String)}
    (ha : a.Summarizes s) (hb : b.Summarizes t) : (a.merge b).Summarizes (s + t) where
  missing := by rw [Multiset.count_add, ← ha.missing, ← hb.missing, CategoricalCounter.merge]
  ascending := ha.ascending.merge hb.ascending.positive
  counts label := by
    rw [Multiset.count_add, ← ha.counts, ← hb.counts]
    exact countOf_merge label a.counts b.counts

end CategoricalCounter

namespace BytesCounter

/-- A counter holds the statistics of some byte arrays and missing ones. -/
structure Summarizes (c : BytesCounter) (s : Multiset (Option (List UInt8))) : Prop where
  total : c.total = s.card
  missing : c.missing = s.count none
  bytes : c.bytes = .ofNat ((known s).map List.length).sum
  lengths : c.lengths.Summarizes orderNat ((known s).map List.length)

theorem Summarizes.empty : Summarizes .empty 0 where
  total := rfl
  missing := rfl
  bytes := rfl
  lengths := .empty

theorem Summarizes.unique {c d : BytesCounter} {s : Multiset (Option (List UInt8))}
    (hc : c.Summarizes s) (hd : d.Summarizes s) : c = d := by
  have hlengths := hc.lengths.unique orders_orderNat (fun _ _ => trivial) hd.lengths
  obtain ⟨total, missing, bytes, lengths⟩ := c
  rw [mk.injEq]
  exact ⟨hc.total.trans hd.total.symm, hc.missing.trans hd.missing.symm,
    hc.bytes.trans hd.bytes.symm, hlengths⟩

theorem Summarizes.add {c : BytesCounter} {s : Multiset (Option (List UInt8))}
    (h : c.Summarizes s) (data : Option (List UInt8)) : (c.add data).Summarizes (data ::ₘ s) := by
  cases data with
  | none =>
    exact {
      total := by rw [Multiset.card_cons, ← h.total, BytesCounter.add]
      missing := by rw [Multiset.count_cons_self, ← h.missing, BytesCounter.add]
      bytes := known_cons_none s ▸ h.bytes
      lengths := known_cons_none s ▸ h.lengths }
  | some data =>
    exact {
      total := by rw [Multiset.card_cons, ← h.total, BytesCounter.add]
      missing := by
        rw [Multiset.count_cons_of_ne (Option.some_ne_none data).symm, ← h.missing,
          BytesCounter.add]
      bytes := by
        rw [known_cons_some, Multiset.map_cons, Multiset.sum_cons, UInt64.ofNat_add, ← h.bytes]
        exact UInt64.add_comm _ _
      lengths := by
        rw [known_cons_some, Multiset.map_cons]
        exact h.lengths.observe orders_orderNat (fun _ _ => trivial) trivial }

theorem Summarizes.merge {a b : BytesCounter} {s t : Multiset (Option (List UInt8))}
    (ha : a.Summarizes s) (hb : b.Summarizes t) : (a.merge b).Summarizes (s + t) where
  total := by rw [Multiset.card_add, ← ha.total, ← hb.total, BytesCounter.merge]
  missing := by rw [Multiset.count_add, ← ha.missing, ← hb.missing, BytesCounter.merge]
  bytes := by
    rw [known_add, Multiset.map_add, Multiset.sum_add, UInt64.ofNat_add, ← ha.bytes, ← hb.bytes,
      BytesCounter.merge]
  lengths := by
    rw [known_add, Multiset.map_add]
    exact ha.lengths.merge orders_orderNat (fun _ _ => trivial) (fun _ _ => trivial) hb.lengths

end BytesCounter

namespace BooleanCounter

/-- A counter holds how often each truth value occurs. -/
structure Summarizes (c : BooleanCounter) (s : Multiset (Option Bool)) : Prop where
  true : c.true = s.count (some .true)
  false : c.false = s.count (some .false)
  missing : c.missing = s.count none

theorem Summarizes.empty : Summarizes .empty 0 := ⟨rfl, rfl, rfl⟩

theorem Summarizes.unique {c d : BooleanCounter} {s : Multiset (Option Bool)}
    (hc : c.Summarizes s) (hd : d.Summarizes s) : c = d := by
  obtain ⟨trues, falses, missing⟩ := c
  rw [mk.injEq]
  exact ⟨hc.true.trans hd.true.symm, hc.false.trans hd.false.symm,
    hc.missing.trans hd.missing.symm⟩

theorem Summarizes.add {c : BooleanCounter} {s : Multiset (Option Bool)} (h : c.Summarizes s)
    (b : Option Bool) : (c.add b).Summarizes (b ::ₘ s) := by
  obtain ⟨ht, hf, hm⟩ := h
  rcases b with _ | _ | _
  · exact ⟨by simp [BooleanCounter.add, ht], by simp [BooleanCounter.add, hf],
      by simp [BooleanCounter.add, hm]⟩
  · exact ⟨by simp [BooleanCounter.add, ht], by simp [BooleanCounter.add, hf],
      by simp [BooleanCounter.add, hm]⟩
  · exact ⟨by simp [BooleanCounter.add, ht], by simp [BooleanCounter.add, hf],
      by simp [BooleanCounter.add, hm]⟩

theorem Summarizes.merge {a b : BooleanCounter} {s t : Multiset (Option Bool)}
    (ha : a.Summarizes s) (hb : b.Summarizes t) : (a.merge b).Summarizes (s + t) where
  true := by rw [Multiset.count_add, ← ha.true, ← hb.true, BooleanCounter.merge]
  false := by rw [Multiset.count_add, ← ha.false, ← hb.false, BooleanCounter.merge]
  missing := by rw [Multiset.count_add, ← ha.missing, ← hb.missing, BooleanCounter.merge]

end BooleanCounter

end Tabular
