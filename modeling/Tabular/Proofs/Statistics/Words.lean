import Mathlib.Data.Int.ModEq
import Mathlib.Tactic.Linarith
import Mathlib.Tactic.Ring
import Tabular.Proofs.Word
import Tabular.Statistics.ExactSum

namespace Tabular.Words

theorem toUInt64_toNat_mod {n : Nat} (h : n < 64) : n.toUInt64.toNat % 64 = n := by
  rw [Nat.toUInt64_eq, UInt64.toNat_ofNat']
  omega

theorem two_pow_offset {offset : Nat} (h : offset ≤ 64) :
    2 ^ 64 = 2 ^ (64 - offset) * 2 ^ offset := by
  rw [← Nat.pow_add, Nat.sub_add_cancel h]

/-- The number that some words stand for, the least significant word first. -/
def toNat : List UInt64 → Nat
  | [] => 0
  | w :: ws => w.toNat + 2 ^ 64 * toNat ws

theorem toNat_lt (ws : List UInt64) : toNat ws < 2 ^ (64 * ws.length) := by
  induction ws with
  | nil => exact Nat.one_pos
  | cons w ws ih =>
    have hw := w.toNat_lt
    rw [toNat, List.length_cons, Nat.mul_succ, Nat.add_comm (64 * ws.length), Nat.pow_add]
    omega

theorem toNat_injective {as bs : List UInt64} (hlen : as.length = bs.length)
    (h : toNat as = toNat bs) : as = bs := by
  induction as generalizing bs with
  | nil => exact (List.length_eq_zero_iff.1 hlen.symm).symm
  | cons a as ih =>
    cases bs with
    | nil => cases hlen
    | cons b bs =>
      have ha := a.toNat_lt
      have hb := b.toNat_lt
      rw [toNat, toNat] at h
      rw [UInt64.toNat_inj.1 (show a.toNat = b.toNat by omega),
        ih (Nat.succ.inj hlen) (by omega)]

theorem toNat_append (as bs : List UInt64) :
    toNat (as ++ bs) = toNat as + 2 ^ (64 * as.length) * toNat bs := by
  induction as with
  | nil => simp only [List.nil_append, toNat, List.length_nil, Nat.mul_zero, Nat.pow_zero,
      Nat.one_mul, Nat.zero_add]
  | cons a as ih =>
    rw [List.cons_append, toNat, toNat, ih, List.length_cons, Nat.mul_succ, Nat.pow_add]
    ring

theorem toNat_replicate_zero (n : Nat) : toNat (List.replicate n 0) = 0 := by
  induction n with
  | zero => rfl
  | succ n ih =>
    rw [List.replicate_succ, toNat, ih, UInt64.toNat_zero, Nat.mul_zero]

theorem toNat_add_carry (a b : UInt64) :
    (a + b).toNat + 2 ^ 64 * (decide (a + b < a)).toNat = a.toNat + b.toNat := by
  have ha := a.toNat_lt
  have hb := b.toNat_lt
  have hsum := UInt64.toNat_add a b
  rcases Nat.lt_or_ge (a.toNat + b.toNat) (2 ^ 64) with h | h
  · rw [Nat.mod_eq_of_lt h] at hsum
    have hlt : ¬a + b < a := by rw [UInt64.lt_iff_toNat_lt]; omega
    rw [decide_eq_false hlt, Bool.toNat_false, hsum, Nat.mul_zero, Nat.add_zero]
  · rw [Nat.mod_eq_sub_mod h, Nat.mod_eq_of_lt (by omega)] at hsum
    have hlt : a + b < a := by rw [UInt64.lt_iff_toNat_lt]; omega
    rw [decide_eq_true hlt, Bool.toNat_true, hsum]
    omega

theorem toNat_sub_borrow (a b : UInt64) :
    (a - b).toNat + b.toNat = a.toNat + 2 ^ 64 * (decide (a < b)).toNat := by
  have ha := a.toNat_lt
  have hb := b.toNat_lt
  have hdiff := UInt64.toNat_sub a b
  rcases Nat.lt_or_ge a.toNat b.toNat with h | h
  · rw [Nat.mod_eq_of_lt (by omega)] at hdiff
    rw [decide_eq_true (UInt64.lt_iff_toNat_lt.2 h), Bool.toNat_true, hdiff]
    omega
  · rw [Nat.mod_eq_sub_mod (by omega), Nat.mod_eq_of_lt (by omega)] at hdiff
    have hlt : ¬a < b := by rw [UInt64.lt_iff_toNat_lt]; omega
    rw [decide_eq_false hlt, Bool.toNat_false, hdiff]
    omega

/-- The two partial carries of a word are never set together. -/
theorem addWord_toNat (a b : UInt64) (carry : Bool) :
    (addWord a b carry).1.toNat + 2 ^ 64 * (addWord a b carry).2.toNat =
      a.toNat + b.toNat + carry.toNat := by
  have ha := a.toNat_lt
  have hb := b.toNat_lt
  have hsum := toNat_add_carry a b
  have hcarry := toNat_add_carry (a + b) (if carry then 1 else 0)
  have hbit : (if carry then 1 else 0 : UInt64).toNat = carry.toNat := by cases carry <;> rfl
  rw [hbit] at hcarry
  have hlow := carry.toNat_le
  rw [addWord]
  -- the bits become variables, so that the four cases are linear arithmetic
  generalize decide (a + b < a) = c at *
  generalize decide (a + b + (if carry then 1 else 0) < a + b) = d at *
  cases c <;> cases d <;> simp only [Bool.toNat_false, Bool.toNat_true, Bool.or_false,
    Bool.or_true] at * <;> omega

theorem subWord_toNat (a b : UInt64) (borrow : Bool) :
    (subWord a b borrow).1.toNat + b.toNat + borrow.toNat =
      a.toNat + 2 ^ 64 * (subWord a b borrow).2.toNat := by
  have hdiff := toNat_sub_borrow a b
  have hborrow := toNat_sub_borrow (a - b) (if borrow then 1 else 0)
  have hbit : (if borrow then 1 else 0 : UInt64).toNat = borrow.toNat := by cases borrow <;> rfl
  have hlt : decide (a - b < (if borrow then 1 else 0)) = (borrow && a - b == 0) := by
    cases borrow with
    | false => simp
    | true => rw [Bool.eq_iff_iff]; simp [UInt64.lt_iff_toNat_lt, ← UInt64.toNat_inj]
  rw [hbit, hlt] at hborrow
  have hb := b.toNat_lt
  have hlow := borrow.toNat_le
  have ht := (a - b - (if borrow then 1 else 0)).toNat_lt
  rw [subWord]
  generalize decide (a < b) = c at *
  generalize (borrow && a - b == 0) = d at *
  cases c <;> cases d <;> simp only [Bool.toNat_false, Bool.toNat_true, Bool.or_false,
    Bool.or_true] at * <;> omega

theorem length_add (as bs : List UInt64) (carry : Bool) :
    (add as bs carry).length = as.length := by
  fun_induction add as bs carry with
  | case1 => rfl
  | case2 a as ih => rw [List.length_cons, List.length_cons, ih]
  | case3 => rfl
  | case4 a as b bs carry ih => rw [List.length_cons, List.length_cons, ih]

theorem length_sub (as bs : List UInt64) (borrow : Bool) :
    (sub as bs borrow).length = as.length := by
  fun_induction sub as bs borrow with
  | case1 => rfl
  | case2 a as ih => rw [List.length_cons, List.length_cons, ih]
  | case3 => rfl
  | case4 a as b bs borrow ih => rw [List.length_cons, List.length_cons, ih]

theorem two_pow_succ_words (n k : Nat) :
    2 ^ (64 * (n + 1)) * k = 2 ^ 64 * (2 ^ (64 * n) * k) := by
  rw [Nat.mul_succ, Nat.pow_add]
  ring

/-- The sum of two numbers, less what its words no longer hold. -/
theorem toNat_add (as bs : List UInt64) (carry : Bool) (h : bs.length ≤ as.length) :
    ∃ k, toNat (add as bs carry) + 2 ^ (64 * as.length) * k =
      toNat as + toNat bs + carry.toNat := by
  fun_induction add as bs carry with
  | case1 bs carry =>
    rw [List.length_eq_zero_iff.1 (Nat.le_zero.1 h)]
    exact ⟨carry.toNat, by simp [toNat]⟩
  | case2 a as ih =>
    obtain ⟨k, hk⟩ := ih (Nat.zero_le _)
    have hword := addWord_toNat a 0 true
    refine ⟨k, ?_⟩
    rw [toNat, toNat, toNat, List.length_cons, two_pow_succ_words]
    rw [UInt64.toNat_zero] at hword
    rw [toNat] at hk
    omega
  | case3 a as carry hc => exact ⟨0, by simp [toNat, hc]⟩
  | case4 a as b bs carry ih =>
    obtain ⟨k, hk⟩ := ih (Nat.le_of_succ_le_succ h)
    have hword := addWord_toNat a b carry
    refine ⟨k, ?_⟩
    rw [toNat, toNat, toNat, List.length_cons, two_pow_succ_words]
    omega

theorem toNat_sub (as bs : List UInt64) (borrow : Bool) (h : bs.length ≤ as.length) :
    ∃ k, toNat (sub as bs borrow) + toNat bs + borrow.toNat =
      toNat as + 2 ^ (64 * as.length) * k := by
  fun_induction sub as bs borrow with
  | case1 bs borrow =>
    rw [List.length_eq_zero_iff.1 (Nat.le_zero.1 h)]
    exact ⟨borrow.toNat, by simp [toNat]⟩
  | case2 a as ih =>
    obtain ⟨k, hk⟩ := ih (Nat.zero_le _)
    have hword := subWord_toNat a 0 true
    refine ⟨k, ?_⟩
    rw [toNat, toNat, toNat, List.length_cons, two_pow_succ_words]
    rw [UInt64.toNat_zero] at hword
    rw [toNat] at hk
    omega
  | case3 a as borrow hb => exact ⟨0, by simp [toNat, hb]⟩
  | case4 a as b bs borrow ih =>
    obtain ⟨k, hk⟩ := ih (Nat.le_of_succ_le_succ h)
    have hword := subWord_toNat a b borrow
    refine ⟨k, ?_⟩
    rw [toNat, toNat, toNat, List.length_cons, two_pow_succ_words]
    omega

theorem toNat_take_drop (ws : List UInt64) {place : Nat} (h : place ≤ ws.length) :
    toNat (ws.take place) + 2 ^ (64 * place) * toNat (ws.drop place) = toNat ws := by
  have happend := toNat_append (ws.take place) (ws.drop place)
  rw [List.take_append_drop, List.length_take_of_le h] at happend
  exact happend.symm

theorem two_pow_words_split {place n : Nat} (h : place ≤ n) (k : Nat) :
    2 ^ (64 * n) * k = 2 ^ (64 * place) * (2 ^ (64 * (n - place)) * k) := by
  rw [← Nat.mul_assoc, ← Nat.pow_add, ← Nat.mul_add, Nat.add_sub_cancel' h]

theorem add_modEq (as bs : List UInt64) (h : bs.length ≤ as.length) :
    (toNat (add as bs false) : Int) ≡ toNat as + toNat bs [ZMOD 2 ^ (64 * as.length)] := by
  obtain ⟨k, hk⟩ := toNat_add as bs false h
  rw [Bool.toNat_false, Nat.add_zero] at hk
  zify at hk
  exact Int.modEq_iff_dvd.2 ⟨k, by rw [← hk]; ring⟩

theorem add_at_modEq (ws parts : List UInt64) {place : Nat}
    (h : place + parts.length ≤ ws.length) :
    (toNat (ws.take place ++ add (ws.drop place) parts false) : Int) ≡
      toNat ws + (2 ^ (64 * place) * toNat parts : Nat) [ZMOD 2 ^ (64 * ws.length)] := by
  have hplace : place ≤ ws.length := by omega
  obtain ⟨k, hk⟩ := toNat_add (ws.drop place) parts false (by rw [List.length_drop]; omega)
  rw [List.length_drop, Bool.toNat_false, Nat.add_zero] at hk
  have hsum : toNat (ws.take place ++ add (ws.drop place) parts false) +
      2 ^ (64 * ws.length) * k = toNat ws + 2 ^ (64 * place) * toNat parts := by
    rw [toNat_append, List.length_take_of_le hplace, two_pow_words_split hplace, Nat.add_assoc,
      ← Nat.mul_add, hk, ← toNat_take_drop ws hplace]
    ring
  zify at hsum
  push_cast
  exact Int.modEq_iff_dvd.2 ⟨k, by rw [← hsum]; ring⟩

theorem sub_at_modEq (ws parts : List UInt64) {place : Nat}
    (h : place + parts.length ≤ ws.length) :
    (toNat (ws.take place ++ sub (ws.drop place) parts false) : Int) ≡
      toNat ws - (2 ^ (64 * place) * toNat parts : Nat) [ZMOD 2 ^ (64 * ws.length)] := by
  have hplace : place ≤ ws.length := by omega
  obtain ⟨k, hk⟩ := toNat_sub (ws.drop place) parts false (by rw [List.length_drop]; omega)
  rw [List.length_drop, Bool.toNat_false, Nat.add_zero] at hk
  have hsum : toNat (ws.take place ++ sub (ws.drop place) parts false) +
      2 ^ (64 * place) * toNat parts = toNat ws + 2 ^ (64 * ws.length) * k := by
    rw [toNat_append, List.length_take_of_le hplace, two_pow_words_split hplace, Nat.add_assoc,
      ← Nat.mul_add, hk, ← toNat_take_drop ws hplace]
    ring
  zify at hsum
  push_cast
  exact Int.modEq_iff_dvd.2 ⟨-k, by linarith⟩

end Tabular.Words
