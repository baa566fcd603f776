import Statechart.Json.Conversion
import Statechart.Json.Document.Reader

/-!
# Stores

A store keeps JSON values under names, for actions to share. Values of any type
with a JSON form can be set, and read back as any type they can be read as; what
is set under a name replaces what was there before, while a value without a JSON
form is not set at all.
-/

namespace Statechart

open Json (Document Readable Representable)

/-- **JSON values under names.** -/
structure Store where
  /-- The values. -/
  values : KeyMap Json

namespace Store

/-- The store without values. -/
def empty : Store := ⟨.nil⟩

instance : Inhabited Store := ⟨empty⟩

/-- Stores are equal if they keep equal values under the same names. -/
instance : BEq Store := ⟨fun left right => Json.sameMembers left.values right.values⟩

/-- The value under a name, as it is kept. -/
def raw? (store : Store) (key : String) : Option Json := store.values.get? key

/-- Whether there is a value under a name. -/
def contains (store : Store) (key : String) : Bool := store.values.contains key

/-- The number of values. -/
def size (store : Store) : Nat := store.values.size

/-- Whether there is no value at all. -/
def isEmpty (store : Store) : Bool := store.values.isEmpty

/-- The value under a name, or `default` if there is none that can be read as
the type. -/
def get {α : Type} [Readable α] (store : Store) (key : String) (default : α) : α :=
  ((store.raw? key).bind Json.ofJson?).getD default

/-- A value is kept under a name, if it has a JSON form. -/
def set {α : Type} [Representable α] (store : Store) (key : String) (value : α) : Store :=
  match Json.toJson? value with
  | some value => ⟨store.values.insert key value⟩
  | none => store

/-- The value under a name is taken out. -/
def remove (store : Store) (key : String) : Option Json × Store :=
  (store.raw? key, ⟨store.values.erase key⟩)

/-! ## Stores in JSON -/

/-- The store that a document describes: a record with the field `values`. -/
def ofDocument? (document : Document) : Option Store := do
  match ← document.fields? ["values"] with
  | [.object members] =>
    return ⟨.ofList (← Document.memberValues? (Document.deepest - 2) members)⟩
  | _ => none

/-- **The store that a text describes.** -/
def ofText? (text : String) : Option Store := (Document.ofText? text).bind ofDocument?

end Store

end Statechart
