import Statechart.KeyMap
import Statechart.Text.Quoted

/-!
# Named actions

A registry holds actions, or anything else, under names. Each name stands for
what was registered under it last.
-/

namespace Statechart

/-- **Actions by their names.** -/
structure Registry (α : Type) where
  /-- The actions. -/
  actions : KeyMap α

namespace Registry

variable {α : Type}

/-- The registry without actions. -/
def empty : Registry α := ⟨.nil⟩

instance : Inhabited (Registry α) := ⟨empty⟩

/-- One more action; it replaces one of the same name. -/
def register (registry : Registry α) (name : String) (action : α) : Registry α :=
  ⟨registry.actions.insert name action⟩

/-- All actions of two registries; those of `other` replace others of the same
name. -/
def merge (registry other : Registry α) : Registry α :=
  ⟨registry.actions.union other.actions⟩

/-- The action of a name. -/
def get? (registry : Registry α) (name : String) : Option α := registry.actions.get? name

/-- Whether a name is registered. -/
def contains (registry : Registry α) (name : String) : Bool := registry.actions.contains name

/-- The number of names. -/
def size (registry : Registry α) : Nat := registry.actions.size

/-- Whether no name is registered. -/
def isEmpty (registry : Registry α) : Bool := registry.actions.isEmpty

/-- A registry for a person to read: its names, quoted, in ascending order. -/
def text (registry : Registry α) : String :=
  "ActionRegistry \x7b actions: ["
    ++ ", ".intercalate (registry.actions.keys.map Text.quoted) ++ "] \x7d"

end Registry

end Statechart
