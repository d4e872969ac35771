import Mathlib.Data.Multiset.Filter
import Tabular.Proofs.Statistics.Counter
import Tabular.Proofs.Value.Order
import Tabular.Proofs.Value.Stored

namespace Tabular

section Extreme

variable {α : Type}

/-- A value of a collection that `r` relates to every value of it; only an empty one has none. -/
def Extreme (r : α → α → Prop) (values : Multiset α) : Option α → Prop
  | none => values = 0
  | some m => m ∈ values ∧ ∀ v ∈ values, r m v

/-- How often a value occurs. -/
def occurrences [DecidableEq α] (values : Multiset α) : Option α → Nat
  | none => 0
  | some m => values.count m

theorem Extreme.imp {r r' : α → α → Prop} (hr : ∀ m v, r m v → r' m v) {values : Multiset α}
    {best : Option α} (h : Extreme r values best) : Extreme r' values best := by
  cases best with
  | none => exact h
  | some m => exact ⟨h.1, fun v hv => hr m v (h.2 v hv)⟩

end Extreme

/-- The signs of some numbers, the least and the greatest of them, and how often these occur. -/
structure DescribesNumbers {α : Type} [LinearOrder α] [Zero α] (numbers : Multiset α)
    (zeros positives negatives : Nat) (least greatest : Option α)
    (countLeast countGreatest : Nat) : Prop where
  zero : zeros = numbers.countP (· = 0)
  positive : positives = numbers.countP (0 < ·)
  negative : negatives = numbers.countP (· < 0)
  min : Extreme (· ≤ ·) numbers least
  max : Extreme (· ≥ ·) numbers greatest
  countMin : countLeast = occurrences numbers least
  countMax : countGreatest = occurrences numbers greatest

namespace Value

/-- The integer that a value of an integer column holds. -/
def integer? : Value → Option Int
  | integer n => some n.toInt
  | long n => some n.toInt
  | byte n => some n.toInt
  | _ => none

end Value

/-- The lengths together of the values that a column measures; only texts and bytes have one. -/
def ColumnType.totalLength (s : Multiset Value) : ColumnType → Nat
  | .string => ((s.filterMap Value.text?).map String.length).sum
  | .bytes => ((s.filterMap Value.bytes?).map List.length).sum
  | _ => 0

/-- The statistics of the integers among some values. -/
structure IntegerReport.Describes (s : Multiset Value) (r : IntegerReport) : Prop where
  total : r.total = s.card
  missing : r.missing = s.countP fun v => v.isNull = true
  numbers : DescribesNumbers (s.filterMap Value.integer?) r.zero r.positive r.negative
    (r.min.map Int64.toInt) (r.max.map Int64.toInt) r.countMin r.countMax
  sum : r.sum = (s.filterMap Value.integer?).sum
  partition : r.total = r.missing + r.zero + r.positive + r.negative

/-- The statistics of the numbers among some values, infinities included and NaN values apart. -/
structure DoubleReport.Describes (s : Multiset Value) (r : DoubleReport) : Prop where
  total : r.total = s.card
  missing : r.missing = s.countP fun v => v.isNull = true
  nan : r.nan = s.countP fun v => v.isNaN = true
  numbers : DescribesNumbers (s.filterMap Value.extended?) r.zero r.positive r.negative
    (r.min.bind Binary.extended?) (r.max.bind Binary.extended?) r.countMin r.countMax
  canonical : ∀ x, r.min = some x ∨ r.max = some x → x.IsCanonical
  partition : r.total = r.missing + r.nan + r.zero + r.positive + r.negative

/-- The statistics of the lengths in characters of the texts among some values. -/
structure StringReport.Describes (s : Multiset Value) (r : StringReport) : Prop where
  total : r.total = s.card
  missing : r.missing = s.countP fun v => v.isNull = true
  empty : r.empty = (s.filterMap Value.text?).count ""
  minLength : Extreme (· ≤ ·) ((s.filterMap Value.text?).map String.length) r.minLength
  maxLength : Extreme (· ≥ ·) ((s.filterMap Value.text?).map String.length) r.maxLength
  countMinLength :
    r.countMinLength = occurrences ((s.filterMap Value.text?).map String.length) r.minLength
  countMaxLength :
    r.countMaxLength = occurrences ((s.filterMap Value.text?).map String.length) r.maxLength
  sumLength : r.sumLength.toNat = ((s.filterMap Value.text?).map String.length).sum

/-- The labels among some values, each with the number of its occurrences. -/
structure CategoricalReport.Describes (s : Multiset Value) (r : CategoricalReport) : Prop where
  total : r.total = s.card
  missing : r.missing = s.countP fun v => v.isNull = true
  counts : ∀ label n, (label, n) ∈ r.counts ↔ 0 < n ∧ n = (s.filterMap Value.text?).count label
  ascending : r.counts.Pairwise fun p q => compare p.1 q.1 = .lt

/-- The statistics of the lengths of the byte arrays among some values. -/
structure BytesReport.Describes (s : Multiset Value) (r : BytesReport) : Prop where
  total : r.total = s.card
  missing : r.missing = s.countP fun v => v.isNull = true
  bytes : r.bytes.toNat = ((s.filterMap Value.bytes?).map List.length).sum
  minLength : Extreme (· ≤ ·) ((s.filterMap Value.bytes?).map List.length) r.minLength
  maxLength : Extreme (· ≥ ·) ((s.filterMap Value.bytes?).map List.length) r.maxLength

/-- The number of occurrences of each truth value. -/
structure BooleanReport.Describes (s : Multiset Value) (r : BooleanReport) : Prop where
  total : r.total = s.card
  missing : r.missing = s.countP fun v => v.isNull = .true
  true : r.true = s.count (.boolean .true)
  false : r.false = s.count (.boolean .false)

/-- A report of a column of a type holds the statistics of the values in the column. -/
inductive ColumnReport.Describes (s : Multiset Value) : ColumnType → ColumnReport → Prop where
  | integer {type : ColumnType} {r : IntegerReport} (mem : type ∈ [.integer, .long, .byte])
      (typed : r.type = type) (h : r.Describes s) : Describes s type (.integer r)
  | double {type : ColumnType} {r : DoubleReport} (mem : type ∈ [.float, .double])
      (typed : r.type = type) (h : r.Describes s) : Describes s type (.double r)
  | string {r : StringReport} (h : r.Describes s) : Describes s .string (.string r)
  | categorical {r : CategoricalReport} (h : r.Describes s) :
      Describes s .categorical (.categorical r)
  | bytes {r : BytesReport} (h : r.Describes s) : Describes s .bytes (.bytes r)
  | boolean {r : BooleanReport} (h : r.Describes s) : Describes s .boolean (.boolean r)

end Tabular
