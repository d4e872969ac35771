import Tabular.Value.Basic

namespace Tabular

/-- The values that a column of a type holds besides missing ones. -/
inductive ColumnType.Stores : ColumnType → Value → Prop where
  | string (s : String) : Stores .string (.string s)
  | categorical (s : String) : Stores .categorical (.string s)
  | integer (n : Int32) : Stores .integer (.integer n)
  | long (n : Int64) : Stores .long (.long n)
  | float (x : Single) : Stores .float (.float x)
  | double (x : Double) : Stores .double (.double x)
  | boolean (b : Bool) : Stores .boolean (.boolean b)
  | byte (n : Int8) : Stores .byte (.byte n)
  | bytes (data : List UInt8) : Stores .bytes (.bytes data)

def Value.isNaN : Value → Bool
  | float x => x.isNaN
  | double x => x.isNaN
  | _ => false

namespace ColumnType

variable {type : ColumnType} {v : Value}

theorem accepts_null (type : ColumnType) : type.accepts (.null type) = true := by
  cases type <;> rfl

theorem Stores.isNull (h : type.Stores v) : v.isNull = false := by
  cases h <;> rfl

theorem Stores.accepts (h : type.Stores v) : type.accepts v = true := by
  cases h <;> rfl

theorem stores_of_accepts (h : type.accepts v = true) (hnull : v.isNull = false) :
    type.Stores v := by
  rw [accepts.eq_def] at h
  split at h
  · cases hnull
  · exact .string _
  · exact .categorical _
  · exact .integer _
  · exact .long _
  · exact .float _
  · exact .double _
  · exact .boolean _
  · exact .byte _
  · exact .bytes _
  · cases h

theorem accepts_iff : type.accepts v = true ↔ v = .null type ∨ type.Stores v := by
  constructor
  · intro h
    cases hnull : v.isNull with
    | true =>
      cases v with
      | null s =>
        have hs : type = s := by simpa [accepts.eq_def] using h
        exact .inl (congrArg _ hs.symm)
      | _ => cases hnull
    | false => exact .inr (stores_of_accepts h hnull)
  · rintro (rfl | h)
    · exact type.accepts_null
    · exact h.accepts

end ColumnType

theorem Value.type_accepts (v : Value) : v.type.accepts v = true := by
  cases v with
  | null t => exact t.accepts_null
  | _ => rfl

end Tabular
