import Statechart.Path.Json
import Statechart.Proofs.Path.Prefix

/-!
# Reading the nested form

The nested form of a path is a chain (`Json.IsChain`): its innermost id, inside an object
with a single member for each id around it. The root alone is no chain, as it has no
innermost id; it is the empty object. Unlike the dotted text, the nested form shows where
an id begins and ends, so that nothing is asked of the ids: they may be empty and may have
dots.

A chain is read from the outside in and made from the inside out. That both come to the
same is shown for the reading first, by induction on the value that is read
(`Path.eq_nestedIds`), and then for the making, by induction on the ids
(`Path.idsOfNested?_nestedIds`). What accepts a value and what makes it are therefore one
equation (`Path.ofNested?_eq_some_iff`), and everything else follows from that.
-/

namespace Statechart

/-- **A chain**: a string, or a chain as the only member of an object. -/
inductive Json.IsChain : Json → Prop where
  | text (text : String) : IsChain (.string text)
  | inside {members : KeyMap Json} {key : String} {inner : Json}
    (single : members.toList = [(key, inner)]) (chain : IsChain inner) : IsChain (.object members)

theorem Json.singleton_eq (key : String) (value : Json) :
    Json.singleton key value = .object (.cons key trivial value .nil) :=
  rfl

/-- An object is the one with a single member exactly if that is its only entry. -/
theorem Json.object_eq_singleton_iff {members : KeyMap Json} {key : String} {value : Json} :
    Json.object members = .singleton key value ↔ members.toList = [(key, value)] := by
  constructor
  · intro h
    rw [Json.object.inj h]
    rfl
  · intro single
    cases members with
    | nil => exact nomatch single
    | cons first above held rest =>
      obtain ⟨hentry, hrest⟩ := List.cons.inj single
      obtain ⟨rfl, rfl⟩ := Prod.mk.inj hentry
      cases rest with
      | nil => rfl
      | cons next above' held' rest' => exact nomatch hrest

namespace Path

variable {json : Json} {id : String} {ids rest : List String} {path : Path}

theorem idsOfNested?_singleton (id : String) (inner : Json) :
    idsOfNested? (.singleton id inner) = (idsOfNested? inner).map (id :: ·) :=
  rfl

theorem nestedIds_cons (h : rest ≠ []) :
    nestedIds (id :: rest) = .singleton id (nestedIds rest) := by
  cases rest with
  | nil => exact absurd rfl h
  | cons next others => rw [nestedIds]

/-! ## What is read -/

mutual

/-- **A value is read only if it is made** of the ids that are read from it. -/
theorem eq_nestedIds : ∀ (json : Json) {ids : List String}, idsOfNested? json = some ids →
    ids ≠ [] ∧ json = nestedIds ids
  | .string id, ids, h => by
    rw [idsOfNested?, Option.some.injEq] at h
    subst h
    exact ⟨List.cons_ne_nil _ _, by rw [nestedIds]⟩
  | .object members, ids, h => by
    rw [idsOfNested?] at h
    obtain ⟨key, rest, rfl, hne, single⟩ := toList_eq_of_idsOfMembers? members h
    refine ⟨List.cons_ne_nil _ _, ?_⟩
    rw [Json.object_eq_singleton_iff.mpr single, nestedIds_cons hne]
  | .null, _, h | .bool _, _, h | .int _, _, h | .float _, _, h | .array _, _, h => by
    rw [idsOfNested?] at h
    exact nomatch h

/-- Members are read only if there is one, and that is made of all ids but the first. -/
theorem toList_eq_of_idsOfMembers? {bound : Option String} : ∀ (members : KeyMap Json bound)
    {ids : List String}, idsOfMembers? members = some ids →
      ∃ key rest, ids = key :: rest ∧ rest ≠ [] ∧ members.toList = [(key, nestedIds rest)]
  | .cons key _ inner .nil, ids, h => by
    rw [idsOfMembers?] at h
    obtain ⟨rest, hrest, rfl⟩ := Option.map_eq_some_iff.mp h
    obtain ⟨hne, hinner⟩ := eq_nestedIds inner hrest
    refine ⟨key, rest, rfl, hne, ?_⟩
    rw [KeyMap.toList, KeyMap.toList, hinner]
  | .cons _ _ _ (.cons _ _ _ _), _, h | .nil, _, h => by
    rw [idsOfMembers?] at h
    exact nomatch h

end

/-! ## What is made -/

/-- **What is made of some ids** is read as these. -/
theorem idsOfNested?_nestedIds (h : ids ≠ []) : idsOfNested? (nestedIds ids) = some ids := by
  induction ids with
  | nil => exact absurd rfl h
  | cons id rest ih =>
    by_cases hrest : rest = []
    · rw [hrest, nestedIds, idsOfNested?]
    · rw [nestedIds_cons hrest, idsOfNested?_singleton, ih hrest, Option.map_some]

theorem idsOfNested?_eq_some_iff :
    idsOfNested? json = some ids ↔ ids ≠ [] ∧ json = nestedIds ids := by
  refine ⟨eq_nestedIds json, ?_⟩
  rintro ⟨hne, rfl⟩
  exact idsOfNested?_nestedIds hne

/-- Only the root is the empty object. -/
theorem nestedIds_eq_empty_iff : nestedIds ids = .object .nil ↔ ids = [] := by
  refine ⟨fun h => ?_, fun h => by rw [h, nestedIds]⟩
  by_contra hne
  have hread := idsOfNested?_nestedIds hne
  rw [h, idsOfNested?, idsOfMembers?] at hread
  exact nomatch hread

/-- **A value is read as a path** exactly if it is the nested form of the path. -/
theorem ofNested?_eq_some_iff : ofNested? json = some path ↔ json = path.nested := by
  unfold ofNested? nested
  split
  · rw [Option.some.injEq, eq_comm (a := Json.object .nil), nestedIds_eq_empty_iff]
    exact ⟨fun h => congrArg segments h.symm, fun h => (ext_segments h).symm⟩
  · rename_i hne
    rw [Option.map_eq_some_iff]
    constructor
    · rintro ⟨ids, hids, rfl⟩
      exact (idsOfNested?_eq_some_iff.mp hids).2
    · rintro rfl
      exact ⟨path.segments,
        idsOfNested?_nestedIds fun hnil => hne (nestedIds_eq_empty_iff.mpr hnil), rfl⟩

/-! ## Chains -/

theorem isChain_nestedIds (h : ids ≠ []) : (nestedIds ids).IsChain := by
  induction ids with
  | nil => exact absurd rfl h
  | cons id rest ih =>
    by_cases hrest : rest = []
    · rw [hrest, nestedIds]
      exact .text id
    · rw [nestedIds_cons hrest]
      exact .inside rfl (ih hrest)

/-- A chain is made of some ids. -/
theorem exists_eq_nestedIds (h : json.IsChain) : ∃ ids, ids ≠ [] ∧ json = nestedIds ids := by
  induction h with
  | text text => exact ⟨[text], List.cons_ne_nil _ _, by rw [nestedIds]⟩
  | @inside members key inner single _ ih =>
    obtain ⟨ids, hne, rfl⟩ := ih
    refine ⟨key :: ids, List.cons_ne_nil _ _, ?_⟩
    rw [Json.object_eq_singleton_iff.mpr single, nestedIds_cons hne]

/-! ## Equality of values -/

/-- There are no numbers in a nested form, so to compare as equal to one is to be equal. -/
theorem same_nestedIds_iff : json.same (nestedIds ids) = true ↔ json = nestedIds ids := by
  induction ids generalizing json with
  | nil =>
    rw [nestedIds]
    cases json with
    | object members => cases members <;> simp [Json.same, Json.sameMembers]
    | _ => simp [Json.same]
  | cons id rest ih =>
    by_cases hrest : rest = []
    · rw [hrest, nestedIds]
      cases json <;> simp [Json.same]
    · rw [nestedIds_cons hrest]
      cases json with
      | object members =>
        rw [Json.object_eq_singleton_iff, Json.singleton_eq, Json.same]
        cases members with
        | nil => simp [Json.sameMembers, KeyMap.toList]
        | cons key above value others =>
          cases others <;> simp [Json.sameMembers, KeyMap.toList, ih]
      | _ => simp [Json.same, Json.singleton]

/-- **Paths and nested forms are the same thing twice.** Every path is read back from its nested
form, and a value is read as a path only if it is the nested form of the path, or compares as
equal to it, which is no less. So it is read exactly if it is the empty object or a chain, and
no two paths have one nested form. -/
theorem nested_bijective :
    (∀ path : Path, ofNested? path.nested = some path)
      ∧ (∀ json path, ofNested? json = some path ↔ json = path.nested)
      ∧ (∀ json path, ofNested? json = some path ↔ (json == path.nested) = true)
      ∧ (∀ json, (∃ path, ofNested? json = some path) ↔ json = .object .nil ∨ json.IsChain)
      ∧ ∀ path path' : Path, path.nested = path'.nested ↔ path = path' := by
  refine ⟨fun path => ofNested?_eq_some_iff.mpr rfl, fun _ _ => ofNested?_eq_some_iff, ?_, ?_, ?_⟩
  · intro json path
    rw [ofNested?_eq_some_iff]
    exact same_nestedIds_iff.symm
  · intro json
    constructor
    · rintro ⟨path, hpath⟩
      rw [ofNested?_eq_some_iff.mp hpath, nested]
      by_cases hnil : path.segments = []
      · exact Or.inl (nestedIds_eq_empty_iff.mpr hnil)
      · exact Or.inr (isChain_nestedIds hnil)
    · rintro (rfl | hchain)
      · exact ⟨root, rfl⟩
      · obtain ⟨ids, -, rfl⟩ := exists_eq_nestedIds hchain
        exact ⟨⟨ids⟩, ofNested?_eq_some_iff.mpr rfl⟩
  · intro path path'
    refine ⟨fun h => ?_, congrArg nested⟩
    exact Option.some.inj
      ((ofNested?_eq_some_iff.mpr h).symm.trans (ofNested?_eq_some_iff.mpr rfl)).symm

/-- Ids may have dots and may be empty. -/
example : ofNested? (.singleton "a.b" (.string "")) = some ⟨["a.b", ""]⟩ := rfl

/-- The empty object stands for the root, but not inside another. -/
example : ofNested? (.singleton "a" (.object .nil)) = none := rfl

end Path

end Statechart
