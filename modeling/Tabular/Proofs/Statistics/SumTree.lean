import Tabular.Proofs.Statistics.ExactSum

namespace Tabular

namespace ExactSum

/-- The words read as a two's complement integer are the balanced residue of the number they hold.
-/
theorem quanta_eq_bmod (s : ExactSum) :
    s.quanta = (Words.toNat s.words : Int).bmod (2 ^ (64 * s.words.length)) := by
  have hlt := Words.toNat_lt s.words
  rw [quanta, Int.bmod_def]
  generalize 2 ^ (64 * s.words.length) = modulus at *
  rw [Int.emod_eq_of_lt (by omega) (by omega)]
  split <;> split <;> omega

theorem Summarizes.quanta {s : ExactSum} {numbers : Multiset Double} (h : s.Summarizes numbers) :
    s.quanta = (finiteQuanta numbers).bmod (2 ^ (64 * wordCount)) := by
  have hfinite := h.finite
  rw [modulus_cast] at hfinite
  rw [quanta_eq_bmod, h.length, ← Int.emod_bmod, hfinite, Int.emod_bmod]

/-- The bits that the largest finite number takes, in quanta. -/
def numberWidth : Nat := 53 + (2 ^ 11 - 2)

theorem natAbs_quanta_le (x : Double) : x.quanta.natAbs ≤ 2 ^ numberWidth := by
  obtain ⟨hmagnitude, hsignificand, hshift⟩ := scaled_magnitude x
  rw [Binary.quanta_natAbs, ← hmagnitude, numberWidth, Nat.pow_add]
  apply Nat.mul_le_mul (Nat.le_of_lt hsignificand)
  exact Nat.pow_le_pow_right Nat.two_pos (Nat.le_sub_one_of_lt hshift)

theorem natAbs_finiteQuanta_le (numbers : Multiset Double) :
    (finiteQuanta numbers).natAbs ≤ numbers.card * 2 ^ numberWidth := by
  induction numbers using Multiset.induction with
  | empty => exact Nat.zero_le _
  | cons x numbers ih =>
    rw [Multiset.card_cons, Nat.succ_mul]
    cases hx : x.isFinite with
    | true =>
      rw [finiteQuanta_cons hx]
      apply Nat.le_trans (Int.natAbs_add_le _ _)
      exact Nat.add_le_add ih (natAbs_quanta_le x)
    | false =>
      rw [finiteQuanta_cons_of_not hx]
      exact Nat.le_add_right_of_le ih

/-- Fewer than `2 ^ 64` numbers do not reach the sign bit. -/
theorem finiteQuanta_fits {numbers : Multiset Double} (few : numbers.card < 2 ^ 64) :
    (finiteQuanta numbers).bmod (2 ^ (64 * wordCount)) = finiteQuanta numbers := by
  have hle := natAbs_finiteQuanta_le numbers
  have hwidth : 64 + numberWidth + 1 ≤ 64 * wordCount := by decide
  generalize numberWidth = width at *
  have hlt : numbers.card * 2 ^ width < 2 ^ 64 * 2 ^ width :=
    Nat.mul_lt_mul_of_pos_right few (Nat.two_pow_pos width)
  have hroom : 2 ^ 64 * 2 ^ width * 2 ≤ 2 ^ (64 * wordCount) := by
    rw [← Nat.pow_add, ← Nat.pow_succ]
    exact Nat.pow_le_pow_right Nat.two_pos hwidth
  generalize numbers.card * 2 ^ width = bound at *
  generalize 2 ^ 64 * 2 ^ width = room at *
  generalize 2 ^ (64 * wordCount) = modulus at *
  apply Int.bmod_eq_of_le_mul_two <;> omega

end ExactSum

/-- A way to come to an exact sum: numbers are added one at a time, and sums are merged. -/
inductive SumTree where
  | empty
  | add (sum : SumTree) (x : Double)
  | merge (left right : SumTree)

namespace SumTree

def numbers : SumTree → Multiset Double
  | empty => 0
  | add sum x => x ::ₘ sum.numbers
  | merge left right => left.numbers + right.numbers

def evaluate : SumTree → ExactSum
  | empty => .empty
  | add sum x => sum.evaluate.add x
  | merge left right => left.evaluate.merge right.evaluate

/-- No number that is added is a NaN. -/
def IsNumeric (tree : SumTree) : Prop := ∀ x ∈ tree.numbers, x.isNaN = false

instance (tree : SumTree) : Decidable tree.IsNumeric :=
  inferInstanceAs (Decidable (∀ x ∈ tree.numbers, x.isNaN = false))

open ExactSum

theorem evaluate_summarizes {tree : SumTree} (numeric : tree.IsNumeric) :
    tree.evaluate.Summarizes tree.numbers := by
  induction tree with
  | empty => exact .empty
  | add sum x ih =>
    have hsum := ih fun y hy => numeric y (Multiset.mem_cons_of_mem hy)
    exact hsum.add (numeric x (Multiset.mem_cons_self x _))
  | merge left right ihl ihr =>
    have hleft := ihl fun x hx => numeric x (Multiset.mem_add.2 (.inl hx))
    have hright := ihr fun x hx => numeric x (Multiset.mem_add.2 (.inr hx))
    exact hleft.merge hright

/-- The words of a sum are its two's complement residue, and sums are equal exactly if their finite
parts and their infinities are. -/
theorem evaluate_exact {tree : SumTree} (numeric : tree.IsNumeric) :
    tree.evaluate.words.length = 34 ∧
      tree.evaluate.quanta = (finiteQuanta tree.numbers).bmod (2 ^ 2176) ∧
      tree.evaluate.positiveInfinities = tree.numbers.count (.infinity false) ∧
      tree.evaluate.negativeInfinities = tree.numbers.count (.infinity true) ∧
      (tree.numbers.card < 2 ^ 64 → tree.evaluate.quanta = finiteQuanta tree.numbers ∧
        tree.evaluate.positiveInfinities < 2 ^ 64 ∧ tree.evaluate.negativeInfinities < 2 ^ 64 ∧
        ∀ other : SumTree, other.IsNumeric → other.numbers.card < 2 ^ 64 →
          (tree.evaluate = other.evaluate ↔
            finiteQuanta tree.numbers = finiteQuanta other.numbers ∧
            tree.numbers.count (.infinity false) = other.numbers.count (.infinity false) ∧
            tree.numbers.count (.infinity true) = other.numbers.count (.infinity true))) := by
  have h := evaluate_summarizes numeric
  rw [show 2176 = 64 * wordCount from rfl]
  refine ⟨h.length, h.quanta, h.positive, h.negative, fun few => ⟨?_, ?_, ?_, ?_⟩⟩
  · rw [h.quanta, finiteQuanta_fits few]
  · rw [h.positive]
    exact Nat.lt_of_le_of_lt (Multiset.count_le_card _ _) few
  · rw [h.negative]
    exact Nat.lt_of_le_of_lt (Multiset.count_le_card _ _) few
  · intro other numeric' few'
    rw [h.eq_iff (evaluate_summarizes numeric')]
    refine and_congr_left fun _ => ⟨fun hmod => ?_, fun heq => by rw [heq]⟩
    rw [modulus_cast] at hmod
    rw [← finiteQuanta_fits few, ← finiteQuanta_fits few', ← Int.emod_bmod, hmod, Int.emod_bmod]

theorem evaluate_exact_of_three :
    let tree : SumTree := .merge (.add (.add .empty (.ofInt 1)) (.infinity true))
      (.add .empty (.ofBits 1))
    let other : SumTree := .add (.add (.merge .empty (.add .empty (.ofBits 1))) (.ofInt 1))
      (.infinity true)
    tree.IsNumeric ∧ tree.numbers.card < 2 ^ 64 ∧ tree.evaluate.quanta = 2 ^ 1074 + 1 ∧
      tree.evaluate.negativeInfinities = 1 ∧ tree.evaluate = other.evaluate := by
  intro tree other
  have numeric : tree.IsNumeric := by decide +kernel
  have numeric' : other.IsNumeric := by decide +kernel
  obtain ⟨-, -, -, hnegative, hfew⟩ := evaluate_exact numeric
  obtain ⟨hquanta, -, -, hiff⟩ := hfew (by decide)
  refine ⟨numeric, by decide, ?_, ?_, ?_⟩
  · rw [hquanta]
    decide +kernel
  · rw [hnegative]
    decide +kernel
  · apply (hiff other numeric' (by decide)).2
    decide +kernel

end SumTree

end Tabular
