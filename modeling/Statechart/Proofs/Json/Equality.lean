import Statechart.Json.Basic
import Statechart.KeyMap.Lemmas

/-!
# Equality of JSON values

Values compare as equal if they are made alike and their numbers are equal. A number is
equal to itself unless it is undefined, and JSON has no way to write such a number. So a
value compares as equal to itself exactly if all of its numbers are defined
(`Json.same_self`).

Objects are compared entry by entry, in the order of their keys. As each key occurs once,
this comes to comparing what they answer for every key (`Json.sameMembers_iff`).
-/

namespace Statechart

namespace Json

/-! ## Values and themselves -/

/-- A number is equal to itself unless it is undefined. -/
theorem float_beq_self (value : Float) : (value == value) = !value.isNaN := by
  show value.toModel.unpack.beq value.toModel.unpack = !value.toModel.unpack.isNaN
  cases value.toModel.unpack with
  | notANumber => rfl
  | zero sign => rfl
  | infinity sign => cases sign <;> rfl
  | finite sign mantissa exponent pos =>
    have hsame : (compare exponent exponent).then (compare mantissa mantissa) = .eq := by
      rw [Std.compare_self, Std.compare_self]
      rfl
    cases sign with
    | positive =>
      show (some ((compare exponent exponent).then (compare mantissa mantissa)) == some .eq) = true
      rw [hsame]
      rfl
    | negative =>
      show (some ((compare exponent exponent).then (compare mantissa mantissa)).swap
        == some .eq) = true
      rw [hsame]
      rfl

mutual

/-- **Whether all numbers of a value are defined.** -/
def isDefined : Json → Bool
  | .null | .bool _ | .int _ | .string _ => true
  | .float value => !value.isNaN
  | .array items => areDefined items
  | .object members => membersDefined members

/-- Whether all numbers of some values are defined. -/
def areDefined : List Json → Bool
  | [] => true
  | item :: rest => item.isDefined && areDefined rest

/-- Whether all numbers of the values in a map are defined. -/
def membersDefined {bound : Option String} : KeyMap Json bound → Bool
  | .nil => true
  | .cons _ _ value rest => value.isDefined && membersDefined rest

end

mutual

/-- **A value compares as equal to itself** exactly if all of its numbers are defined. -/
theorem same_self : (json : Json) → json.same json = json.isDefined
  | .null => rfl
  | .bool value => by rw [same, beq_self_eq_true, isDefined]
  | .int value => by rw [same, beq_self_eq_true, isDefined]
  | .float value => by rw [same, float_beq_self, isDefined]
  | .string text => by rw [same, beq_self_eq_true, isDefined]
  | .array items => by rw [same, sameItems_self items, isDefined]
  | .object members => by rw [same, sameMembers_self members, isDefined]

theorem sameItems_self : (items : List Json) → sameItems items items = areDefined items
  | [] => rfl
  | item :: rest => by rw [sameItems, same_self item, sameItems_self rest, areDefined]

theorem sameMembers_self {bound : Option String} :
    (members : KeyMap Json bound) → sameMembers members members = membersDefined members
  | .nil => rfl
  | .cons key above value rest => by
    rw [sameMembers, beq_self_eq_true, Bool.true_and, same_self value, sameMembers_self rest,
      membersDefined]

end

/-! ## Comparing answers -/

/-- Values that compare as equal are there or missing together. -/
theorem isSome_eq_of_beq {left right : Option Json} (h : (left == right) = true) :
    left.isSome = right.isSome := by
  cases left <;> cases right <;> simp_all

/-- **Maps compare as equal** if they answer alike for every key. -/
theorem sameMembers_iff {bound bound' : Option String} {left : KeyMap Json bound}
    {right : KeyMap Json bound'} :
    sameMembers left right = true
      ↔ ∀ key, (left.get? key == right.get? key) = true := by
  induction left generalizing bound' with
  | nil =>
    cases right with
    | nil => exact iff_of_true rfl fun _ => rfl
    | cons first' above' value' rest' =>
      exact iff_of_false Bool.false_ne_true fun h => by simpa [KeyMap.get?] using h first'
  | cons first above value rest ih =>
    cases right with
    | nil => exact iff_of_false Bool.false_ne_true fun h => by simpa [KeyMap.get?] using h first
    | cons first' above' value' rest' =>
      rw [sameMembers, Bool.and_eq_true, Bool.and_eq_true, beq_iff_eq, ih]
      constructor
      · rintro ⟨⟨rfl, hvalue⟩, hrest⟩ key
        by_cases hkey : key = first
        · rw [KeyMap.get?, KeyMap.get?, if_pos hkey, if_pos hkey]
          exact hvalue
        · simpa [KeyMap.get?, hkey] using hrest key
      · intro h
        obtain rfl := KeyMap.first_eq fun key => isSome_eq_of_beq (h key)
        have hvalue : (value == value') = true := by simpa [KeyMap.get?] using h first
        refine ⟨⟨rfl, hvalue⟩, fun key => ?_⟩
        by_cases hkey : key = first
        · rw [hkey, KeyMap.get?_tail_self, KeyMap.get?_tail_self]
          rfl
        · simpa [KeyMap.get?, hkey] using h key

end Json

end Statechart
