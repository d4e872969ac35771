import Mathlib.Algebra.Ring.Int.Defs
import Mathlib.Algebra.Ring.Nat

namespace Tabular

/-- A whole number as a word of 64 bits, if it is one. -/
def word? (n : Int) : Option UInt64 :=
  if 0 ≤ n ∧ n < 2 ^ 64 then some n.toNat.toUInt64 else none

theorem word?_eq {z : Int} {n : Nat} (hz : z = n) (h : n < 2 ^ 64) : word? z = some n.toUInt64 := by
  subst hz
  exact if_pos ⟨Int.natCast_nonneg n, by exact_mod_cast h⟩

theorem mapM_eq_some {α β : Type} {g : α → Option β} {f : α → β} {xs : List α}
    (h : ∀ x ∈ xs, g x = some (f x)) : xs.mapM g = some (xs.map f) := by
  induction xs with
  | nil => rfl
  | cons x xs ih =>
    rw [List.mapM_cons, h x List.mem_cons_self, ih fun y hy => h y (List.mem_cons_of_mem x hy)]
    rfl

theorem mapM_eq_none {α β : Type} {g : α → Option β} {x : α} {xs : List α} (hx : x ∈ xs)
    (h : g x = none) : xs.mapM g = none := by
  induction hx with
  | head xs =>
    rw [List.mapM_cons, h]
    rfl
  | tail y _ ih =>
    rw [List.mapM_cons, ih]
    cases g y <;> rfl

end Tabular
