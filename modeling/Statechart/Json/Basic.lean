import Statechart.KeyMap

/-!
# JSON values

What a JSON text means, apart from how it is written: an object is a map from
names to values, and a number is a whole number or a floating-point number.
-/

namespace Statechart

/-- **A JSON value.** Whole numbers and floating-point numbers are kept apart,
as `1` and `1.0` are. -/
inductive Json where
  | null
  | bool (value : Bool)
  | int (value : Int)
  | float (value : Float)
  | string (text : String)
  | array (items : List Json)
  | object (members : KeyMap Json)

namespace Json

instance : Inhabited Json := ⟨.null⟩

mutual

/-- **Equality of values.** Floating-point numbers are equal if they compare as
equal, and never to a whole number. -/
def same : Json → Json → Bool
  | .null, .null => true
  | .bool value, .bool value' => value == value'
  | .int value, .int value' => value == value'
  | .float value, .float value' => value == value'
  | .string text, .string text' => text == text'
  | .array items, .array items' => sameItems items items'
  | .object members, .object members' => sameMembers members members'
  | _, _ => false

/-- Whether two lists hold equal values one by one. -/
def sameItems : List Json → List Json → Bool
  | [], [] => true
  | item :: rest, item' :: rest' => item.same item' && sameItems rest rest'
  | _, _ => false

/-- Whether two maps hold equal values under the same keys. -/
def sameMembers {bound bound' : Option String} : KeyMap Json bound → KeyMap Json bound' → Bool
  | .nil, .nil => true
  | .cons key _ value rest, .cons key' _ value' rest' =>
    key == key' && value.same value' && sameMembers rest rest'
  | _, _ => false

end

instance : BEq Json := ⟨same⟩

end Json

end Statechart
