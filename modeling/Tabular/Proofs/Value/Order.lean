import Tabular.Proofs.Value.Key
import Tabular.Proofs.Value.Numeric

namespace Tabular

theorem compareBytes_swap (as bs : List UInt8) :
    (compareBytes as bs).swap = compareBytes bs as := by
  induction as generalizing bs with
  | nil => cases bs <;> rfl
  | cons a as ih =>
    cases bs with
    | nil => rfl
    | cons b bs =>
      have hfirst : (compare a.toNat b.toNat).swap = compare b.toNat a.toNat :=
        Std.OrientedOrd.eq_swap.symm
      rw [compareBytes, compareBytes, Ordering.swap_then, hfirst, ih]

/-- What compares with one another. -/
inductive Family where
  | number
  | text
  | boolean
  | bytes
deriving DecidableEq

namespace Value

def family? : Value → Option Family
  | null _ => none
  | string _ => some .text
  | boolean _ => some .boolean
  | bytes _ => some .bytes
  | integer _ | long _ | byte _ | float _ | double _ => some .number

def Comparable (a b : Value) : Prop := ∃ family, a.family? = some family ∧ b.family? = some family

/-- The extended real number that a value stands for; a NaN and what is not a number stand for none.
-/
noncomputable def extended? : Value → Option EReal
  | integer n => some ((n.toInt : ℝ) : EReal)
  | long n => some ((n.toInt : ℝ) : EReal)
  | byte n => some ((n.toInt : ℝ) : EReal)
  | float x => x.extended?
  | double x => x.extended?
  | null _ | string _ | boolean _ | bytes _ => none

variable {a b : Value} {m n : Numeric}

theorem exists_number? (h : a.family? = some .number) : ∃ m, a.number? = some m := by
  cases a <;> cases h <;> exact ⟨_, rfl⟩

theorem family?_of_extended? {r : EReal} (h : a.extended? = some r) :
    a.family? = some .number := by
  cases a <;> first | rfl | cases h

theorem number?_extended? (h : a.number? = some m) : m.extended? = a.extended? := by
  cases a with
  | integer n =>
    cases h
    rw [Numeric.extended?, Int32.toInt_toInt64]
    rfl
  | long n =>
    cases h
    rfl
  | byte n =>
    cases h
    rw [Numeric.extended?, Int8.toInt_toInt64]
    rfl
  | float x =>
    cases h
    exact Binary.convert_extended? x
  | double x =>
    cases h
    rfl
  | null _ => cases h
  | string _ => cases h
  | boolean _ => cases h
  | bytes _ => cases h

theorem compare_of_number? (ha : a.number? = some m) (hb : b.number? = some n) :
    a.compare b = .ok (m.compare n) := by
  cases a <;> cases ha <;> cases b <;> cases hb <;> rfl

theorem compare_of_comparable (h : a.Comparable b) :
    ∃ o, a.compare b = .ok o ∧ b.compare a = .ok o.swap := by
  obtain ⟨family, ha, hb⟩ := h
  cases family with
  | number =>
    obtain ⟨m, hm⟩ := exists_number? ha
    obtain ⟨n, hn⟩ := exists_number? hb
    refine ⟨m.compare n, compare_of_number? hm hn, ?_⟩
    rw [m.compare_swap n]
    exact compare_of_number? hn hm
  | text =>
    cases a <;> cases ha
    cases b <;> cases hb
    refine ⟨_, rfl, congrArg Except.ok ?_⟩
    exact Std.OrientedOrd.eq_swap
  | boolean =>
    cases a <;> cases ha
    cases b <;> cases hb
    refine ⟨_, rfl, congrArg Except.ok ?_⟩
    exact Std.OrientedOrd.eq_swap
  | bytes =>
    cases a <;> cases ha
    cases b <;> cases hb
    exact ⟨_, rfl, congrArg Except.ok (compareBytes_swap _ _).symm⟩

theorem Comparable.symm (h : a.Comparable b) : b.Comparable a := by
  obtain ⟨family, ha, hb⟩ := h
  exact ⟨family, hb, ha⟩

theorem compare_of_not_comparable (h : ¬a.Comparable b) :
    a.compare b = .error (.typeMismatch (.ofType a.type) (.value b)) := by
  cases a <;> cases b <;> first | rfl | exact absurd ⟨_, rfl, rfl⟩ h

/-- Values compare exactly if they are of one family, and numbers other than NaN like the extended
real numbers they stand for. -/
theorem compare_exact (a b : Value) :
    (∀ o, a.compare b = .ok o ↔ b.compare a = .ok o.swap) ∧
      (a.Comparable b → ∃ o, a.compare b = .ok o) ∧
      (¬a.Comparable b → a.compare b = .error (.typeMismatch (.ofType a.type) (.value b)) ∧
        b.compare a = .error (.typeMismatch (.ofType b.type) (.value a))) ∧
      ∀ r s, a.extended? = some r → b.extended? = some s → a.compare b = .ok (cmp r s) := by
  refine ⟨?_, ?_, ?_, ?_⟩
  · intro o
    by_cases h : a.Comparable b
    · obtain ⟨o', hab, hba⟩ := compare_of_comparable h
      rw [hab, hba, Except.ok.injEq, Except.ok.injEq, Ordering.swap_inj]
    · rw [compare_of_not_comparable h, compare_of_not_comparable (mt Comparable.symm h)]
      constructor <;> intro hok <;> cases hok
  · intro h
    obtain ⟨o, ho, -⟩ := compare_of_comparable h
    exact ⟨o, ho⟩
  · intro h
    exact ⟨compare_of_not_comparable h, compare_of_not_comparable (mt Comparable.symm h)⟩
  · intro r s hr hs
    obtain ⟨m, hm⟩ := exists_number? (family?_of_extended? hr)
    obtain ⟨n, hn⟩ := exists_number? (family?_of_extended? hs)
    rw [← number?_extended? hm] at hr
    rw [← number?_extended? hn] at hs
    rw [compare_of_number? hm hn, Numeric.compare_eq_cmp hr hs]

theorem compare_exact_of_long :
    let a : Value := .long (2 ^ 53 + 1)
    let b : Value := .double (.ofInt (2 ^ 53))
    ∃ r s, a.extended? = some r ∧ b.extended? = some s ∧ s < r ∧ a.compare b = .ok .gt ∧
      b.compare a = .ok .lt := by
  intro a b
  have hcode : Format.quantaOf .binary64 (1076 * 2 ^ 52) =
      (2 ^ 53 : Int).natAbs * Format.unit .binary64 := by decide +kernel
  have hdouble : b.extended? = some (((2 ^ 53 : Int) : ℝ) : EReal) :=
    Binary.ofInt_extended? hcode (by decide)
  have hlong : a.extended? = some (((2 ^ 53 + 1 : Int) : ℝ) : EReal) := rfl
  obtain ⟨hswap, -, -, hcmp⟩ := compare_exact a b
  have hlt : (((2 ^ 53 : Int) : ℝ) : EReal) < (((2 ^ 53 + 1 : Int) : ℝ) : EReal) := by
    rw [EReal.coe_lt_coe_iff, Int.cast_lt]
    exact Int.lt_succ (2 ^ 53)
  have hgt := hcmp _ _ hlong hdouble
  rw [hlt.cmp_eq_gt] at hgt
  exact ⟨_, _, hlong, hdouble, hlt, hgt, (hswap .gt).1 hgt⟩

def isWhole : Value → Bool
  | integer _ | long _ | byte _ => true
  | null _ | string _ | boolean _ | bytes _ | float _ | double _ => false

def isNegativeNaN : Value → Bool
  | float x => x.isNaN && x.negative
  | double x => x.isNaN && x.negative
  | null _ | string _ | boolean _ | bytes _ | integer _ | long _ | byte _ => false

theorem number?_isWhole (h : a.number? = some m) : m.isWhole = a.isWhole := by
  cases a <;> cases h <;> rfl

theorem number?_isNegativeNaN (h : a.number? = some m) : m.isNegativeNaN = a.isNegativeNaN := by
  have hsingle (x : Single) : (Numeric.real x.convert).isNegativeNaN = (float x).isNegativeNaN := by
    rw [Numeric.isNegativeNaN, isNegativeNaN, Binary.convert_isNaN, Binary.convert_negative]
  cases a <;> cases h <;> first | rfl | exact hsingle _

/-- Whether integers or negative NaN values are absent, which an order of all numbers needs. -/
def Orderly (values : List Value) : Prop :=
  (∀ v ∈ values, v.isWhole = false) ∨ ∀ v ∈ values, v.isNegativeNaN = false

theorem Orderly.not_clashes {values : List Value} (h : Orderly values) (hmem : b ∈ values)
    (hmem' : a ∈ values) (ha : a.number? = some m) (hb : b.number? = some n) : ¬m.Clashes n := by
  rintro ⟨hwhole, hnan⟩
  rw [number?_isWhole ha] at hwhole
  rw [number?_isNegativeNaN hb] at hnan
  rcases h with h | h
  · rw [h a hmem'] at hwhole
    cases hwhole
  · rw [h b hmem] at hnan
    cases hnan

theorem Orderly.compare_le_iff {values : List Value} (h : Orderly values) (hmem : a ∈ values)
    (hmem' : b ∈ values) (ha : a.number? = some m) (hb : b.number? = some n) :
    a.compare b ≠ .ok .gt ↔ m.rank ≤ n.rank := by
  have hmn := h.not_clashes hmem' hmem ha hb
  have hnm := h.not_clashes hmem hmem' hb ha
  rw [compare_of_number? ha hb, Numeric.compare_eq_cmp_rank hmn hnm, ne_eq, Except.ok.injEq,
    cmp_eq_gt_iff, not_lt]

/-- The order of numbers is transitive unless an integer and a negative NaN are among them; only
such a NaN is not above all numbers. -/
theorem compare_numbers {a b c : Value} (ha : a.family? = some .number)
    (hb : b.family? = some .number) (hc : c.family? = some .number) :
    (∃ o, a.compare b = .ok o) ∧
      (Orderly [a, b, c] → a.compare b ≠ .ok .gt → b.compare c ≠ .ok .gt →
        a.compare c ≠ .ok .gt) ∧
      (a.extended? = none → ∀ s, b.extended? = some s →
        a.compare b = .ok (if a.isNegativeNaN && !b.isWhole then .lt else .gt)) := by
  obtain ⟨m, hm⟩ := exists_number? ha
  obtain ⟨n, hn⟩ := exists_number? hb
  obtain ⟨p, hp⟩ := exists_number? hc
  refine ⟨⟨_, compare_of_number? hm hn⟩, ?_, ?_⟩
  · intro h hab hbc
    have hmem : a ∈ [a, b, c] := List.mem_cons_self
    have hmem' : b ∈ [a, b, c] := List.mem_cons_of_mem _ List.mem_cons_self
    have hmem'' : c ∈ [a, b, c] :=
      List.mem_cons_of_mem _ (List.mem_cons_of_mem _ List.mem_cons_self)
    rw [h.compare_le_iff hmem hmem' hm hn] at hab
    rw [h.compare_le_iff hmem' hmem'' hn hp] at hbc
    rw [h.compare_le_iff hmem hmem'' hm hp]
    exact hab.trans hbc
  · intro hnone s hs
    rw [← number?_extended? hm] at hnone
    rw [← number?_extended? hn] at hs
    obtain ⟨x, rfl, hx⟩ := Numeric.exists_isNaN hnone
    have hnegative : a.isNegativeNaN = x.negative := by
      rw [← number?_isNegativeNaN hm, Numeric.isNegativeNaN, hx, Bool.true_and]
    rw [compare_of_number? hm hn, Numeric.compare_of_isNaN hx hs, hnegative, number?_isWhole hn]

theorem compare_numbers_of_nan :
    let one : Value := .double (.ofInt 1)
    let five : Value := .long 5
    let nan : Value := .double .nan
    Orderly [one, five, nan] ∧ one.compare five = .ok .lt ∧ five.compare nan = .ok .lt ∧
      one.compare nan ≠ .ok .gt ∧ (Value.double .invalid).compare one = .ok .lt := by
  intro one five nan
  have horderly : Orderly [one, five, nan] := .inr (by decide +kernel)
  have hfive : one.compare five = .ok .lt :=
    (compare_of_number? rfl rfl).trans (congrArg Except.ok (by decide +kernel))
  have hnan : five.compare nan = .ok .lt :=
    (compare_of_number? rfl rfl).trans (congrArg Except.ok (by decide +kernel))
  have hnone : (Value.double .invalid).extended? = none :=
    Binary.extended?_of_isNaN (by decide +kernel)
  have hcode : Format.quantaOf .binary64 (1023 * 2 ^ 52) =
      (1 : Int).natAbs * Format.unit .binary64 := by decide +kernel
  have hone : one.extended? = some (((1 : Int) : ℝ) : EReal) :=
    Binary.ofInt_extended? hcode (by decide)
  obtain ⟨-, htrans, -⟩ := compare_numbers (a := one) (b := five) (c := nan) rfl rfl rfl
  obtain ⟨-, -, hbelow⟩ :=
    compare_numbers (a := .double .invalid) (b := one) (c := one) rfl rfl rfl
  refine ⟨horderly, hfive, hnan, ?_, hbelow hnone _ hone⟩
  apply htrans horderly
  · rw [hfive]
    intro h
    cases h
  · rw [hnan]
    intro h
    cases h

/-- The negative NaN is below one and one below five, but it is above five: it is not above every
number, and the order is not transitive. -/
theorem compare_invalid :
    let one : Value := .double (.ofInt 1)
    let five : Value := .long 5
    let nan : Value := .double .invalid
    nan.compare one = .ok .lt ∧ one.compare five = .ok .lt ∧ nan.compare five = .ok .gt := by
  refine ⟨?_, ?_, ?_⟩
  · exact (compare_of_number? rfl rfl).trans (congrArg Except.ok (by decide +kernel))
  · exact (compare_of_number? rfl rfl).trans (congrArg Except.ok (by decide +kernel))
  · exact (compare_of_number? rfl rfl).trans (congrArg Except.ok (by decide +kernel))

end Value

end Tabular
