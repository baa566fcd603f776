import Mathlib.Data.List.Dedup
import Statechart.Action.Registry
import Statechart.KeyMap.Lemmas

/-!
# What a registry holds

A registry is made by registering actions one at a time, and by merging in others that
have been made in the same way, however deep (`Registry.Recipe`). Read in order, all of
this is one list of registrations, in which those of a registry that is merged stand at
the place where it is merged.

Under each name a registry holds what is registered last in this list
(`Registry.Recipe.holds`). The names that it holds are then those in the list, it counts
each of them once, and two registries that hold the same list are equal.
-/

namespace Statechart

namespace Registry

variable {α : Type}

/-! ## Holding registrations -/

/-- **A registry holds a list of registrations**: what is registered last under each name,
and nothing under other names. -/
def Holds (registry : Registry α) (registrations : List (String × α)) : Prop :=
  ∀ name, registry.get? name = registrations.reverse.lookup name

namespace Holds

variable {registry other : Registry α} {registrations registrations' : List (String × α)}
  {name : String}

theorem empty : (Registry.empty : Registry α).Holds [] := fun _ => rfl

/-- One more registration comes last. -/
theorem register (h : registry.Holds registrations) (name : String) (action : α) :
    (registry.register name action).Holds (registrations ++ [(name, action)]) := by
  intro asked
  show (registry.actions.insert name action).get? asked = _
  rw [KeyMap.get?_insert, List.reverse_concat, List.lookup_cons]
  by_cases hname : asked = name
  · rw [if_pos hname, beq_iff_eq.mpr hname]
  · rw [if_neg hname, beq_false_of_ne hname]
    exact h asked

/-- **The registrations of a registry that is merged come last.** -/
theorem merge (h : registry.Holds registrations) (h' : other.Holds registrations') :
    (registry.merge other).Holds (registrations ++ registrations') := by
  intro asked
  show (registry.actions.union other.actions).get? asked = _
  rw [KeyMap.get?_union, List.reverse_append, List.lookup_append, ← h asked, ← h' asked]
  rfl

/-- **A name is held exactly if it was registered at some point.** -/
theorem contains_iff (h : registry.Holds registrations) :
    registry.contains name = true ↔ name ∈ registrations.map Prod.fst := by
  show (registry.get? name).isSome = true ↔ _
  rw [h name, List.lookup_isSome_iff, List.mem_map]
  constructor
  · rintro ⟨registration, hmem, hname⟩
    exact ⟨registration, List.mem_reverse.mp hmem, (eq_of_beq hname).symm⟩
  · rintro ⟨registration, hmem, rfl⟩
    exact ⟨registration, List.mem_reverse.mpr hmem, beq_self_eq_true _⟩

/-- **Each name counts once**, however often it was registered. -/
theorem size_eq (h : registry.Holds registrations) :
    registry.size = (registrations.map Prod.fst).dedup.length := by
  have hperm : registry.actions.keys.Perm (registrations.map Prod.fst).dedup := by
    refine (List.perm_ext_iff_of_nodup (KeyMap.nodup_keys _) (List.nodup_dedup _)).mpr
      fun name => ?_
    rw [KeyMap.mem_keys_iff, List.mem_dedup]
    exact h.contains_iff
  exact (KeyMap.length_keys _).symm.trans hperm.length_eq

/-- **A registry is determined by what it holds.** -/
theorem eq (h : registry.Holds registrations) (h' : other.Holds registrations) :
    registry = other :=
  congrArg Registry.mk (KeyMap.ext_get? fun name => (h name).trans (h' name).symm)

end Holds

/-! ## Making registries -/

/-- **How a registry is made.** -/
inductive Recipe (α : Type) where
  /-- It has no actions. -/
  | empty
  /-- Another one is made, and one more action is registered. -/
  | register (recipe : Recipe α) (name : String) (action : α)
  /-- Two others are made, and the second is merged into the first. -/
  | merge (recipe other : Recipe α)

namespace Recipe

/-- The registry that is made. -/
def registry : Recipe α → Registry α
  | empty => .empty
  | register recipe name action => recipe.registry.register name action
  | merge recipe other => recipe.registry.merge other.registry

/-- **All registrations**, in order; those of a registry that is merged come where it is
merged. -/
def registrations : Recipe α → List (String × α)
  | empty => []
  | register recipe name action => recipe.registrations ++ [(name, action)]
  | merge recipe other => recipe.registrations ++ other.registrations

/-- **A registry holds the registrations that it is made of.** -/
theorem holds (recipe : Recipe α) : recipe.registry.Holds recipe.registrations := by
  induction recipe with
  | empty => exact .empty
  | register recipe name action ih => exact ih.register name action
  | merge recipe other ih ih' => exact ih.merge ih'

end Recipe

end Registry

end Statechart
