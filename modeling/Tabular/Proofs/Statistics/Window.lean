import Tabular.Proofs.Statistics.Words

namespace Tabular.Words

theorem toNat_drop_eq (ws : List UInt64) (place : Nat) :
    toNat (ws.drop place) =
      (ws.getD place 0).toNat + 2 ^ 64 * toNat (ws.drop (place + 1)) := by
  induction ws generalizing place with
  | nil => simp [toNat]
  | cons w ws ih =>
    cases place with
    | zero => rfl
    | succ place => exact ih place

theorem toNat_take_add_drop (ws : List UInt64) (place : Nat) :
    toNat (ws.take place) + 2 ^ (64 * place) * toNat (ws.drop place) = toNat ws := by
  by_cases h : place ≤ ws.length
  · exact toNat_take_drop ws h
  · have hle : ws.length ≤ place := by omega
    rw [List.take_of_length_le hle, List.drop_of_length_le hle, toNat, Nat.mul_zero, Nat.add_zero]

theorem toNat_take_lt (ws : List UInt64) (place : Nat) :
    toNat (ws.take place) < 2 ^ (64 * place) := by
  apply Nat.lt_of_lt_of_le (toNat_lt _)
  apply Nat.pow_le_pow_right Nat.two_pos
  exact Nat.mul_le_mul_left 64 (List.length_take_le place ws)

theorem toNat_drop (ws : List UInt64) (place : Nat) :
    toNat (ws.drop place) = toNat ws / 2 ^ (64 * place) := by
  rw [← toNat_take_add_drop ws place, Nat.add_mul_div_left _ _ (Nat.two_pow_pos _),
    Nat.div_eq_of_lt (toNat_take_lt ws place), Nat.zero_add]

theorem toNat_take (ws : List UInt64) (place : Nat) :
    toNat (ws.take place) = toNat ws % 2 ^ (64 * place) := by
  conv_rhs => rw [← toNat_take_add_drop ws place]
  rw [Nat.add_mul_mod_self_left, Nat.mod_eq_of_lt (toNat_take_lt ws place)]

theorem two_pow_start (start : Nat) :
    2 ^ start = 2 ^ (64 * (start / 64)) * 2 ^ (start % 64) := by
  rw [← Nat.pow_add, Nat.div_add_mod]

theorem div_offset_lt {low offset : Nat} (hlow : low < 2 ^ 64) (h : offset ≤ 64) :
    low / 2 ^ offset < 2 ^ (64 - offset) := by
  rw [Nat.div_lt_iff_lt_mul (Nat.two_pow_pos offset), ← two_pow_offset h]
  exact hlow

theorem straddle_toNat (low high : UInt64) {offset : Nat} (hpos : 0 < offset)
    (hlt : offset < 64) :
    (low >>> offset.toUInt64 ||| high <<< (64 - offset).toUInt64).toNat =
      low.toNat / 2 ^ offset + 2 ^ (64 - offset) * (high.toNat % 2 ^ offset) := by
  have hupper := div_offset_lt low.toNat_lt (Nat.le_of_lt hlt)
  rw [UInt64.toNat_or, UInt64.toNat_shiftRight, UInt64.toNat_shiftLeft, toUInt64_toNat_mod hlt,
    toUInt64_toNat_mod (by omega), Nat.shiftRight_eq_div_pow, Nat.shiftLeft_eq,
    two_pow_offset (Nat.le_of_lt hlt), Nat.mul_comm high.toNat, Nat.mul_mod_mul_left, Nat.or_comm,
    ← Nat.two_pow_add_eq_or_of_lt hupper, Nat.add_comm]

theorem straddle_div {low high : Nat} (rest : Nat) {offset : Nat} (hlow : low < 2 ^ 64)
    (hlt : offset < 64) :
    (low + 2 ^ 64 * (high + 2 ^ 64 * rest)) / 2 ^ offset % 2 ^ 64 =
      low / 2 ^ offset + 2 ^ (64 - offset) * (high % 2 ^ offset) := by
  have hsplit := two_pow_offset (Nat.le_of_lt hlt)
  have hupper := div_offset_lt hlow (Nat.le_of_lt hlt)
  have hdiv : (low + 2 ^ 64 * (high + 2 ^ 64 * rest)) / 2 ^ offset =
      low / 2 ^ offset + 2 ^ (64 - offset) * (high + 2 ^ 64 * rest) := by
    rw [show low + 2 ^ 64 * (high + 2 ^ 64 * rest) =
      low + 2 ^ offset * (2 ^ (64 - offset) * (high + 2 ^ 64 * rest)) by rw [hsplit]; ring]
    exact Nat.add_mul_div_left _ _ (Nat.two_pow_pos offset)
  have hhigh : (high + 2 ^ 64 * rest) % 2 ^ offset = high % 2 ^ offset := by
    rw [hsplit, Nat.mul_comm (2 ^ (64 - offset)), Nat.mul_assoc, Nat.add_mul_mod_self_left]
  rw [hdiv]
  generalize high + 2 ^ 64 * rest = upper at hhigh ⊢
  rw [hsplit, Nat.mod_mul, Nat.add_mul_mod_self_left, Nat.mod_eq_of_lt hupper,
    Nat.add_mul_div_left _ _ (Nat.two_pow_pos _), Nat.div_eq_of_lt hupper, Nat.zero_add, hhigh]

/-- The window from a bit on holds the 64 bits from there on. -/
theorem window_toNat (ws : List UInt64) (start : Nat) :
    (window ws start).toNat = toNat ws / 2 ^ start % 2 ^ 64 := by
  have hwhole : toNat ws / 2 ^ start = toNat (ws.drop (start / 64)) / 2 ^ (start % 64) := by
    rw [toNat_drop, Nat.div_div_eq_div_mul, ← two_pow_start]
  have hlow := (ws.getD (start / 64) 0).toNat_lt
  have hoffset : start % 64 < 64 := Nat.mod_lt start (by decide)
  rw [hwhole, toNat_drop_eq ws (start / 64)]
  by_cases hzero : start % 64 = 0
  · rw [hzero, Nat.pow_zero, Nat.div_one, Nat.add_mul_mod_self_left, Nat.mod_eq_of_lt hlow]
    simp only [window, hzero, ↓reduceIte]
  · rw [toNat_drop_eq ws (start / 64 + 1), straddle_div _ hlow hoffset,
      ← straddle_toNat _ _ (Nat.pos_of_ne_zero hzero) hoffset]
    simp only [window, hzero, ↓reduceIte]

theorem any_iff (ws : List UInt64) : ws.any (· != 0) = true ↔ toNat ws ≠ 0 := by
  induction ws with
  | nil => simp [toNat]
  | cons w ws ih =>
    rw [List.any_cons, Bool.or_eq_true, ih, bne_iff_ne, toNat, ne_eq, ← UInt64.toNat_inj,
      UInt64.toNat_zero]
    omega

theorem mask_toNat {offset : Nat} (h : offset < 64) :
    (1 <<< offset.toUInt64 - 1 : UInt64).toNat = 2 ^ offset - 1 := by
  have hpow : 2 ^ offset < 2 ^ 64 := Nat.pow_lt_pow_right Nat.one_lt_two h
  have hshift : (1 <<< offset.toUInt64 : UInt64).toNat = 2 ^ offset := by
    rw [UInt64.toNat_shiftLeft, toUInt64_toNat_mod h, UInt64.toNat_one, Nat.one_shiftLeft,
      Nat.mod_eq_of_lt hpow]
  have hone : (1 : UInt64) ≤ 1 <<< offset.toUInt64 := by
    rw [UInt64.le_iff_toNat_le, hshift]
    exact Nat.two_pow_pos offset
  rw [UInt64.toNat_sub_of_le _ _ hone, hshift, UInt64.toNat_one]

theorem anyBelow_iff (ws : List UInt64) (start : Nat) :
    anyBelow ws start = true ↔ toNat ws % 2 ^ start ≠ 0 := by
  have hoffset : start % 64 < 64 := Nat.mod_lt start (by decide)
  have hmod : toNat ws % 2 ^ start = toNat (ws.take (start / 64)) +
      2 ^ (64 * (start / 64)) * ((ws.getD (start / 64) 0).toNat % 2 ^ (start % 64)) := by
    rw [two_pow_start start, Nat.mod_mul, ← toNat_take, ← toNat_drop, toNat_drop_eq]
    congr 2
    rw [two_pow_offset (Nat.le_of_lt hoffset), Nat.mul_comm (2 ^ (64 - start % 64)), Nat.mul_assoc,
      Nat.add_mul_mod_self_left]
  have hpos := Nat.two_pow_pos (64 * (start / 64))
  rw [anyBelow, Bool.or_eq_true, any_iff, bne_iff_ne, ne_eq, ← UInt64.toNat_inj, UInt64.toNat_and,
    mask_toNat hoffset, Nat.and_two_pow_sub_one_eq_mod, UInt64.toNat_zero, hmod, ne_eq, ne_eq,
    Nat.add_eq_zero_iff, Nat.mul_eq_zero]
  generalize toNat (ws.take (start / 64)) = below
  generalize (ws.getD (start / 64) 0).toNat % 2 ^ (start % 64) = inside
  omega

theorem log2_cons {low high : Nat} (hlow : low < 2 ^ 64) (hhigh : high ≠ 0) :
    (low + 2 ^ 64 * high).log2 = 64 + high.log2 := by
  rw [Nat.log2_eq_iff (by omega)]
  have hle := Nat.log2_self_le hhigh
  have hlt := Nat.lt_log2_self (n := high)
  constructor
  · rw [Nat.pow_add]
    omega
  · rw [Nat.add_assoc, Nat.pow_add]
    omega

theorem toNat_of_top?_none {ws : List UInt64} (h : top? ws = none) : toNat ws = 0 := by
  induction ws with
  | nil => rfl
  | cons w ws ih =>
    rw [top?] at h
    split at h
    · cases h
    · next htop =>
      split at h
      · next hw => rw [toNat, ih htop, hw, UInt64.toNat_zero, Nat.mul_zero]
      · cases h

theorem log2_of_top? {ws : List UInt64} {place : Nat} (h : top? ws = some place) :
    toNat ws ≠ 0 ∧ (toNat ws).log2 = 64 * place + (ws.getD place 0).toNat.log2 := by
  induction ws generalizing place with
  | nil => cases h
  | cons w ws ih =>
    have hw := w.toNat_lt
    rw [top?] at h
    split at h
    · next above htop =>
      cases h
      obtain ⟨hne, hlog⟩ := ih htop
      refine ⟨by rw [toNat]; omega, ?_⟩
      rw [toNat, log2_cons hw hne, hlog, List.getD_cons_succ]
      omega
    · next htop =>
      split at h
      · cases h
      · next hne =>
        cases h
        have hne' : w.toNat ≠ 0 := fun h0 => hne (UInt64.toNat_inj.1 h0)
        rw [toNat, toNat_of_top?_none htop, Nat.mul_zero, Nat.add_zero, Nat.mul_zero, Nat.zero_add]
        exact ⟨hne', rfl⟩

/-- The words below the last one are less than one step of it, so its highest bit decides. -/
theorem top_bit_iff {below step last : Nat} (hbelow : below < step) (hlast : last < 2 ^ 64) :
    last / 2 ^ 63 = 1 ↔ step * 2 ^ 64 ≤ 2 * (below + step * last) := by
  have hdouble : step * 2 ^ 64 = 2 * (step * 2 ^ 63) := Nat.mul_left_comm step 2 (2 ^ 63)
  rw [hdouble, Nat.mul_le_mul_left_iff Nat.two_pos]
  constructor
  · intro h
    have hle : 2 ^ 63 ≤ last := by omega
    exact Nat.le_trans (Nat.mul_le_mul_left step hle) (Nat.le_add_left _ _)
  · intro h
    have hlt : step * 2 ^ 63 < step * (last + 1) := by
      rw [Nat.mul_succ step last]
      omega
    have hle := Nat.lt_of_mul_lt_mul_left hlt
    omega

theorem isNegative_iff (ws : List UInt64) :
    isNegative ws = true ↔ 2 ^ (64 * ws.length) ≤ 2 * toNat ws := by
  rcases ws.eq_nil_or_concat with rfl | ⟨init, last, rfl⟩
  · decide
  · have hshift : (last >>> 63).toNat = last.toNat / 2 ^ 63 := by
      rw [UInt64.toNat_shiftRight, Nat.shiftRight_eq_div_pow]
      rfl
    have hsingle : toNat [last] = last.toNat := by
      rw [toNat, toNat, Nat.mul_zero, Nat.add_zero]
    rw [List.concat_eq_append, isNegative, List.getLastD_concat, beq_iff_eq, ← UInt64.toNat_inj,
      hshift, UInt64.toNat_one, toNat_append, hsingle, List.length_append, List.length_singleton,
      Nat.mul_succ, Nat.pow_add]
    exact top_bit_iff (toNat_lt init) last.toNat_lt

theorem toNat_complement (ws : List UInt64) :
    toNat (ws.map (~~~ ·)) + toNat ws + 1 = 2 ^ (64 * ws.length) := by
  induction ws with
  | nil => rfl
  | cons w ws ih =>
    have hw := w.toNat_lt
    have hnot := UInt64.toNat_not w
    rw [List.map_cons, toNat, toNat, List.length_cons, Nat.mul_succ, Nat.add_comm (64 * ws.length),
      Nat.pow_add, hnot, ← ih]
    rw [show UInt64.size = 2 ^ 64 from rfl]
    omega

theorem toNat_negate {ws : List UInt64} (h : toNat ws ≠ 0) :
    toNat (negate ws) = 2 ^ (64 * ws.length) - toNat ws := by
  obtain ⟨k, hk⟩ := toNat_add (ws.map (~~~ ·)) [] true (Nat.zero_le _)
  have hlt := toNat_lt (negate ws)
  have hcomplement := toNat_complement ws
  rw [List.length_map, Bool.toNat_true, toNat] at hk
  have hk' : toNat (negate ws) + 2 ^ (64 * ws.length) * k = 2 ^ (64 * ws.length) - toNat ws := by
    rw [negate]
    omega
  cases k with
  | zero => simpa using hk'
  | succ k =>
    rw [Nat.mul_succ] at hk'
    omega

end Tabular.Words
