import Mathlib.Data.List.Basic

/-!
# Where an item of a list is

What is said of every item of a list together with the items before or after it is said
of every way to split the list at an item. Lists grow by one item at either end, and a
split of the longer list is one at the new item or one of the shorter list
(`split_cons`, `split_concat`).
-/

namespace Statechart

universe u

variable {α : Type u} {items before after : List α} {item first last : α}

/-- An item of a list with one more in front is this one, or one of the others. -/
theorem split_cons (h : first :: items = before ++ item :: after) :
    (before = [] ∧ item = first)
      ∨ ∃ earlier, before = first :: earlier ∧ items = earlier ++ item :: after := by
  obtain ⟨hnil, hhead⟩ | hcons := List.cons_eq_append_iff.mp h
  · exact .inl ⟨hnil, (List.cons.inj hhead).1⟩
  · exact .inr hcons

/-- An item of a list with one more at the end is this one, or one of the others. -/
theorem split_concat (h : items ++ [last] = before ++ item :: after) :
    (before = items ∧ item = last ∧ after = [])
      ∨ ∃ later, after = later ++ [last] ∧ items = before ++ item :: later := by
  obtain rfl | ⟨later, other, rfl⟩ := after.eq_nil_or_concat'
  · obtain ⟨hitems, hlast⟩ := List.append_inj' h rfl
    exact .inl ⟨hitems.symm, (List.singleton_inj.mp hlast).symm, rfl⟩
  · rw [← List.cons_append, ← List.append_assoc] at h
    obtain ⟨hitems, hlast⟩ := List.append_inj' h rfl
    exact .inr ⟨later, by rw [List.singleton_inj.mp hlast], hitems⟩

end Statechart
