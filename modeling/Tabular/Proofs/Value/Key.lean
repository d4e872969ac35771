import Tabular.Proofs.Binary.Exact
import Tabular.Value.Key

namespace Tabular

/-- Sameness of numbers of one family; NaN values are told apart by their bits but the quiet one. -/
def Numeric.sameKey : Numeric → Numeric → Bool
  | whole m, whole n => decide (m.toInt = n.toInt)
  | real x, real y => x == y || (x.isNaN && y.isNaN && decide (x.quiet = y.quiet))
  | _, _ => false

namespace Value

def number? : Value → Option Numeric
  | boolean _ => none
  | v => v.numeric

/-- Sameness of values other than numbers. -/
def sameContent : Value → Value → Bool
  | string s, string t => decide (s = t)
  | boolean a, boolean b => decide (a = b)
  | bytes s, bytes t => decide (s = t)
  | _, _ => false

/-- Sameness of values as keys, which no missing value has. -/
def sameKey (v w : Value) : Bool :=
  match v.number?, w.number? with
  | some m, some n => m.sameKey n
  | none, none => v.sameContent w
  | _, _ => false

end Value

namespace Key

def ofNumeric : Numeric → Key
  | .whole n => .whole n
  | .real x => .real (x.add .zero)

theorem ofNumeric_inj {m n : Numeric} : ofNumeric m = ofNumeric n ↔ m.sameKey n = true := by
  cases m with
  | whole m =>
    cases n with
    | whole n => simp [ofNumeric, Numeric.sameKey, Int64.toInt_inj]
    | real y => simp [ofNumeric, Numeric.sameKey]
  | real x =>
    cases n with
    | whole n => simp [ofNumeric, Numeric.sameKey]
    | real y => simp [ofNumeric, Numeric.sameKey, Binary.add_zero_inj, and_assoc]

theorem of?_of_number? {v : Value} {n : Numeric} (h : v.number? = some n) :
    of? v = some (ofNumeric n) := by
  cases v <;> cases h <;> rfl

theorem of?_ne_ofNumeric {v : Value} (h : v.number? = none) (n : Numeric) :
    of? v ≠ some (ofNumeric n) := by
  cases n <;> cases v <;> simp_all [of?, ofNumeric, Value.number?, Value.numeric]

theorem sameContent_iff {v w : Value} (hv : v.number? = none) (hw : w.number? = none) :
    v.sameContent w = true ↔ ∃ key, of? v = some key ∧ of? w = some key := by
  cases v <;> cases hv <;> cases w <;> cases hw <;> simp [Value.sameContent, of?]
  all_goals exact eq_comm

theorem sameKey_iff (v w : Value) :
    v.sameKey w = true ↔ ∃ key, of? v = some key ∧ of? w = some key := by
  cases hv : v.number? with
  | some m =>
    have hm := of?_of_number? hv
    cases hw : w.number? with
    | some n =>
      have hn := of?_of_number? hw
      simp only [Value.sameKey, hv, hw, hm, hn, Option.some.injEq, exists_eq_left', ofNumeric_inj,
        @eq_comm Key (ofNumeric n)]
    | none =>
      have hne := of?_ne_ofNumeric hw m
      simpa [Value.sameKey, hv, hw, hm] using hne
  | none =>
    cases hw : w.number? with
    | some n =>
      have hne := of?_ne_ofNumeric hv n
      simpa [Value.sameKey, hv, hw, of?_of_number? hw] using hne
    | none =>
      simp only [Value.sameKey, hv, hw]
      exact sameContent_iff hv hw

end Key

end Tabular
