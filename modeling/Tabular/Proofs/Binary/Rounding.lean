import Mathlib.Tactic.Linarith
import Mathlib.Tactic.Ring
import Tabular.Binary.Round

namespace Tabular

/-- `q` is the whole number nearest to `n / d`, and a tie goes to the even one. -/
structure RoundsTo (n d q : Nat) : Prop where
  lower : 2 * (q * d) ≤ 2 * n + d
  upper : 2 * n ≤ 2 * (q * d) + d
  even : 2 * (q * d) = 2 * n + d ∨ 2 * n = 2 * (q * d) + d → q % 2 = 0

namespace RoundsTo

variable {n d q q' : Nat}

theorem not_succ_le (hd : 0 < d) (h : RoundsTo n d q) (h' : RoundsTo n d q') : ¬q + 1 ≤ q' := by
  intro hlt
  have hlower := h'.lower
  have hupper := h.upper
  have hmul : (q + 1) * d ≤ q' * d := Nat.mul_le_mul_right d hlt
  rw [Nat.add_mul, Nat.one_mul] at hmul
  have hq : q % 2 = 0 := h.even (.inr (by omega))
  have hq' : q' % 2 = 0 := h'.even (.inl (by omega))
  have heq : (q + 1) * d = q' * d := by
    rw [Nat.add_mul, Nat.one_mul]
    omega
  have hnext := Nat.eq_of_mul_eq_mul_right hd heq
  omega

theorem unique (hd : 0 < d) (h : RoundsTo n d q) (h' : RoundsTo n d q') : q = q' := by
  have hle := not_succ_le hd h h'
  have hge := not_succ_le hd h' h
  omega

theorem mul_right {c : Nat} (hc : 0 < c) (h : RoundsTo n d q) : RoundsTo (n * c) (d * c) q where
  lower := by
    have hlower := Nat.mul_le_mul_right c h.lower
    linarith
  upper := by
    have hupper := Nat.mul_le_mul_right c h.upper
    linarith
  even := by
    intro htie
    apply h.even
    rcases htie with htie | htie
    · left
      apply Nat.eq_of_mul_eq_mul_right hc
      linarith
    · right
      apply Nat.eq_of_mul_eq_mul_right hc
      linarith

theorem of_roundEven (n : Nat) {d : Nat} (hd : 0 < d) : RoundsTo n d (roundEven n d) := by
  have hsplit := Nat.div_add_mod' n d
  have hrest := Nat.mod_lt n hd
  generalize hq : n / d = q at hsplit
  generalize hr : n % d = r at hsplit hrest
  have hsucc : (q + 1) * d = q * d + d := Nat.succ_mul q d
  rw [roundEven, hq, hr]
  cases hcmp : compare (2 * r) d with
  | lt =>
    rw [Nat.compare_eq_lt] at hcmp
    change RoundsTo n d q
    exact ⟨by omega, by omega, fun h => by omega⟩
  | gt =>
    rw [Nat.compare_eq_gt] at hcmp
    change RoundsTo n d (q + 1)
    exact ⟨by omega, by omega, fun h => by omega⟩
  | eq =>
    rw [Nat.compare_eq_eq] at hcmp
    by_cases heven : q % 2 = 0
    · simp only [heven, ↓reduceIte]
      exact ⟨by omega, by omega, fun _ => heven⟩
    · simp only [heven, ↓reduceIte]
      exact ⟨by omega, by omega, fun _ => by omega⟩

theorem roundEven_eq (hd : 0 < d) (h : RoundsTo n d q) : roundEven n d = q :=
  (of_roundEven n hd).unique hd h

theorem le_of_mul_le {m : Nat} (hd : 0 < d) (h : RoundsTo n d q) (hm : m * d ≤ n) :
    m ≤ q := by
  by_contra hlt
  have hmul : (q + 1) * d ≤ m * d := Nat.mul_le_mul_right d (by omega)
  have hupper := h.upper
  rw [Nat.succ_mul] at hmul
  omega

theorem le_of_le_mul {m : Nat} (hd : 0 < d) (h : RoundsTo n d q) (hm : n ≤ m * d) :
    q ≤ m := by
  by_contra hlt
  have hmul : (m + 1) * d ≤ q * d := Nat.mul_le_mul_right d (by omega)
  have hlower := h.lower
  rw [Nat.succ_mul] at hmul
  omega

end RoundsTo

theorem roundEven_mul_right (n : Nat) {d c : Nat} (hd : 0 < d) (hc : 0 < c) :
    roundEven (n * c) (d * c) = roundEven n d :=
  ((RoundsTo.of_roundEven n hd).mul_right hc).roundEven_eq (Nat.mul_pos hd hc)

/-- The whole part of `n / d`, its last bit set if anything is left. -/
def jam (n d : Nat) : Nat := if n % d = 0 then n / d else n / d ||| 1

theorem or_one (n : Nat) : n ||| 1 = 2 * (n / 2) + 1 := by
  have hhalf : (n ||| 1) / 2 = n / 2 := by rw [Nat.or_div_two, Nat.or_zero]
  have hodd : (n ||| 1) % 2 = 1 := Nat.or_mod_two_eq_one.2 (.inr rfl)
  omega

theorem jam_bounds {n d : Nat} (hd : 0 < d) (hrest : n % d ≠ 0) :
    jam n d % 2 = 1 ∧ (jam n d - 1) * d < n ∧ n < (jam n d + 1) * d := by
  have hsplit := Nat.div_add_mod' n d
  have hlt := Nat.mod_lt n hd
  rw [jam, if_neg hrest, or_one]
  generalize n / d = m at *
  have hlow : (2 * (m / 2) + 1 - 1) * d ≤ m * d := Nat.mul_le_mul_right d (by omega)
  have hhigh : (m + 1) * d ≤ (2 * (m / 2) + 1 + 1) * d := Nat.mul_le_mul_right d (by omega)
  rw [Nat.succ_mul] at hhigh
  exact ⟨by omega, by omega, by omega⟩

/-- Where two bits or more are rounded off, the last of them may stand for all that is below. -/
theorem roundEven_jam (n : Nat) {h d : Nat} (hh : 0 < h) (hd : 0 < d) :
    roundEven (jam n d) (4 * h) = roundEven n (4 * h * d) := by
  have hround := RoundsTo.of_roundEven (jam n d) (show 0 < 4 * h by omega)
  generalize roundEven (jam n d) (4 * h) = q at hround
  symm
  apply RoundsTo.roundEven_eq (Nat.mul_pos (by omega) hd)
  by_cases hrest : n % d = 0
  · rw [jam, if_pos hrest] at hround
    have hexact : n / d * d = n := Nat.div_mul_cancel (Nat.dvd_of_mod_eq_zero hrest)
    have hscaled := hround.mul_right hd
    rwa [hexact] at hscaled
  · obtain ⟨hodd, hlow, hhigh⟩ := jam_bounds hd hrest
    generalize jam n d = m at *
    have hquarter : q * (4 * h) = 2 * (2 * (q * h)) := by ring
    have hlower := hround.lower
    have hupper := hround.upper
    -- the jammed number is odd, so that it misses the even bounds by one
    have hlower' : (q * (4 * h)) * d ≤ (m - 1 + 2 * h) * d := Nat.mul_le_mul_right d (by omega)
    have hupper' : (m + 1) * d ≤ (q * (4 * h) + 2 * h) * d := Nat.mul_le_mul_right d (by omega)
    rw [Nat.add_mul (m - 1)] at hlower'
    rw [Nat.add_mul (q * (4 * h))] at hupper'
    have hproduct : q * (4 * h * d) = q * (4 * h) * d := (Nat.mul_assoc q (4 * h) d).symm
    have hhalf : 4 * h * d = 2 * (2 * h * d) := by ring
    exact ⟨by omega, by omega, fun htie => by omega⟩

end Tabular
