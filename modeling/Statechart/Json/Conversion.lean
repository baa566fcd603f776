import Statechart.Json.Basic

/-!
# Values of other types in JSON

A type is `Json.Readable` if some JSON values stand for its values, and
`Json.Representable` if its values have a JSON form, all of them or some. A whole
number stands for a value of a fixed-width type if it is in range, whereas a
floating-point number never stands for a whole one.
-/

namespace Statechart

namespace Json

/-- **Types whose values can be read from JSON.** -/
class Readable (α : Type) where
  /-- The value that a JSON value stands for. -/
  ofJson? : Json → Option α

/-- **Types whose values can be written as JSON**, as far as they have a form
there. -/
class Representable (α : Type) where
  /-- The JSON form of a value. -/
  toJson? : α → Option Json

export Readable (ofJson?)
export Representable (toJson?)

/-! ## Single values -/

instance : Readable Json := ⟨some⟩

instance : Representable Json := ⟨some⟩

instance : Readable Bool where
  ofJson?
    | .bool value => some value
    | _ => none

instance : Representable Bool := ⟨fun value => some (.bool value)⟩

instance : Readable String where
  ofJson?
    | .string text => some text
    | _ => none

instance : Representable String := ⟨fun text => some (.string text)⟩

/-- A character is a string of length one. -/
instance : Readable Char where
  ofJson?
    | .string text =>
      match text.toList with
      | [char] => some char
      | _ => none
    | _ => none

instance : Representable Unit := ⟨fun _ => some .null⟩

/-- The whole number that a value is, if it is not less than `least` and less than
`limit`. -/
def intBelow? (least limit : Int) : Json → Option Int
  | .int value => if least ≤ value ∧ value < limit then some value else none
  | _ => none

instance : Readable UInt8 :=
  ⟨fun value => (intBelow? 0 UInt8.size value).map (.ofNat ·.toNat)⟩

instance : Readable UInt32 :=
  ⟨fun value => (intBelow? 0 UInt32.size value).map (.ofNat ·.toNat)⟩

instance : Readable UInt64 :=
  ⟨fun value => (intBelow? 0 UInt64.size value).map (.ofNat ·.toNat)⟩

instance : Readable Int8 := ⟨fun value => (intBelow? (-128) 128 value).map .ofInt⟩

instance : Readable Int64 :=
  ⟨fun value => (intBelow? (-9223372036854775808) 9223372036854775808 value).map .ofInt⟩

instance : Representable UInt32 := ⟨fun value => some (.int value.toNat)⟩

/-- Whole numbers of any size are written as far as they fit the 64-bit
integers. -/
instance : Representable Int where
  toJson? value :=
    (intBelow? (-9223372036854775808) UInt64.size (.int value)).map .int

/-- Every number stands for a floating-point number. -/
instance : Readable Float where
  ofJson?
    | .int value => some (.ofInt value)
    | .float value => some value
    | _ => none

/-- Infinities and undefined results have no number in JSON and become null. -/
instance : Representable Float where
  toJson? value := some (if value.isFinite then .float value else .null)

/-! ## Several values together -/

/-- Null stands for nothing. -/
instance {α : Type} [Readable α] : Readable (Option α) where
  ofJson?
    | .null => some none
    | value => (ofJson? value).map some

instance {α : Type} [Readable α] : Readable (List α) where
  ofJson?
    | .array items => items.mapM ofJson?
    | _ => none

/-- A pair is an array of exactly two items. -/
instance {α β : Type} [Readable α] [Readable β] : Readable (α × β) where
  ofJson?
    | .array [first, second] => do return (← ofJson? first, ← ofJson? second)
    | _ => none

instance {α : Type} [Readable α] : Readable (KeyMap α) where
  ofJson?
    | .object members => do
      let entries ← members.toList.mapM fun (key, value) => do return (key, ← ofJson? value)
      return .ofList entries
    | _ => none

/-- **Types whose values can be names of members.** -/
class Name (κ : Type) where
  /-- The name that a value makes. -/
  name? : κ → Option String

instance : Name String := ⟨some⟩

instance : Name Int := ⟨fun value => some value.repr⟩

/-- A pair is no name. -/
instance {κ κ' : Type} : Name (κ × κ') := ⟨fun _ => none⟩

/-- Entries with keys of any type. -/
structure Table (κ α : Type) where
  /-- The entries. -/
  entries : List (κ × α)

/-- A table is an object, as far as all of its keys can be names. -/
instance {κ α : Type} [Name κ] [Representable α] : Representable (Table κ α) where
  toJson? table := do
    let members ← table.entries.mapM fun (key, value) => do
      return (← Name.name? key, ← toJson? value)
    return .object (.ofList members)

end Json

end Statechart
