import Mathlib.Data.List.Induction
import Mathlib.Data.Set.Card
import Statechart.Proofs.Json.Equality
import Statechart.Proofs.Split
import Statechart.Store

/-!
# What a store keeps

A store is changed by calls that set a value under a name or take out what is there. What
is kept under a name afterwards can be read off the list of calls: it is the form of the
value that was set there last, of those that have a form, unless the name was taken out
since (`Store.LastSet`).

Everything else follows from how a single call changes what is kept under a name. A call
either spares the name, which then keeps what it had, or it does not, and the name keeps
the form of what the call sets, whatever was there before (`Store.Call.Spares`). A call
spares all names but its own, so that calls under different names do not meet, and a store
is determined by what it keeps (`Store.ext_raw?`), so that it does not matter in which
order they are made.
-/

namespace Statechart

open Json (Readable Representable)

namespace Store

variable {α : Type} {store left right : Store} {name : String} {json : Json}

/-- **A store is determined by what it keeps.** -/
theorem ext_raw? (h : ∀ name, left.raw? name = right.raw? name) : left = right := by
  cases left
  cases right
  exact congrArg Store.mk (KeyMap.ext_get? h)

/-- **Stores compare as equal** if what they keep under each name does. -/
theorem beq_iff :
    (left == right) = true ↔ ∀ name, (left.raw? name == right.raw? name) = true :=
  Json.sameMembers_iff

/-! ## Looking at a store -/

/-- **The size of a store** is the number of names under which it keeps something. -/
theorem encard_names (store : Store) :
    {name | (store.raw? name).isSome = true}.encard = store.size := by
  have hnames : {name | (store.raw? name).isSome = true} = ↑store.values.keys.toFinset := by
    ext name
    rw [List.coe_toFinset]
    exact KeyMap.mem_keys_iff.symm
  rw [hnames, Set.encard_coe_eq_coe_finsetCard,
    List.toFinset_card_of_nodup (KeyMap.nodup_keys _), KeyMap.length_keys]
  rfl

theorem isEmpty_iff : store.isEmpty = true ↔ store.size = 0 := by
  obtain ⟨values⟩ := store
  cases values with
  | nil => exact iff_of_true rfl rfl
  | cons first above value rest => exact iff_of_false nofun nofun

section Get

variable [Readable α] {value default : α}

/-- What can be read is given back. -/
theorem get_eq_of_read (hraw : store.raw? name = some json)
    (hread : Json.ofJson? json = some value) : store.get name default = value := by
  rw [get, hraw, Option.bind_some, hread, Option.getD_some]

/-- Where nothing can be read, the default is given back. -/
theorem get_eq_default
    (h : ∀ json, store.raw? name = some json → Json.ofJson? json = (none : Option α)) :
    store.get name default = default := by
  unfold get
  cases hraw : store.raw? name with
  | none => rfl
  | some json => rw [Option.bind_some, h json hraw, Option.getD_none]

end Get

/-! ## Changing a store -/

theorem raw?_set [Representable α] (store : Store) (key : String) (value : α) (name : String) :
    (store.set key value).raw? name
      = if name = key then (Json.toJson? value).or (store.raw? name) else store.raw? name := by
  unfold set
  split
  · rename_i json hjson
    rw [hjson, Option.some_or]
    exact KeyMap.get?_insert store.values key json name
  · rename_i hjson
    rw [hjson, Option.none_or, ite_self]

theorem raw?_remove (store : Store) (key name : String) :
    (store.remove key).2.raw? name = if name = key then none else store.raw? name :=
  KeyMap.get?_erase store.values key name

/-- **A call that changes a store.** -/
inductive Call : Type 1 where
  /-- A value of some type is set under a name. -/
  | set {α : Type} [Representable α] (key : String) (value : α)
  /-- What is under a name is taken out. -/
  | remove (key : String)

namespace Call

variable {call first second : Call}

/-- The name that a call is about. -/
def key : Call → String
  | set key _ => key
  | remove key => key

/-- The form of the value that a call sets, if it sets one and this has a form. -/
def form? : Call → Option Json
  | set _ value => Json.toJson? value
  | remove _ => none

/-- What a call gives back, and the store afterwards. Only a removal gives something
back. -/
def perform (store : Store) : Call → Option Json × Store
  | set key value => (none, store.set key value)
  | remove key => store.remove key

/-- **A call spares a name** if it is about another one, or sets a value without a form. -/
def Spares (name : String) : Call → Prop
  | set key value => key = name → Json.toJson? value = none
  | remove key => key ≠ name

/-- All numbers in what a call sets are defined, as they are in all that JSON can write. -/
def SetsDefined (call : Call) : Prop := ∀ json, call.form? = some json → json.isDefined = true

/-- A call spares all names but its own. -/
theorem spares_of_ne (h : call.key ≠ name) : call.Spares name := by
  cases call with
  | set key value => exact fun heq => absurd heq h
  | remove key => exact h

/-- A call that sets a value with a form does not spare its name. -/
theorem not_spares_of_form? (hkey : call.key = name) (hform : call.form? = some json) :
    ¬ call.Spares name := by
  cases call with
  | set key value => exact fun h => nomatch hform.symm.trans (h hkey)
  | remove key => exact nomatch hform

/-- **A name that is spared** keeps what it had. -/
theorem raw?_of_spares (h : call.Spares name) (store : Store) :
    (call.perform store).2.raw? name = store.raw? name := by
  cases call with
  | set key value =>
    refine (raw?_set store key value name).trans ?_
    split
    · rename_i heq
      rw [h heq.symm, Option.none_or]
    · rfl
  | remove key => exact (raw?_remove store key name).trans (if_neg (Ne.symm h))

/-- **A name that is not spared** keeps the form of what the call sets, if anything,
whatever it had before. -/
theorem raw?_of_not_spares (h : ¬ call.Spares name) (store : Store) :
    (call.perform store).2.raw? name = call.form? := by
  cases call with
  | set key value =>
    obtain ⟨rfl, hform⟩ := Classical.not_imp.mp h
    obtain ⟨json, hjson⟩ := Option.ne_none_iff_exists'.mp hform
    refine (raw?_set store key value key).trans ?_
    rw [if_pos rfl, form?, hjson, Option.some_or]
  | remove key =>
    exact (raw?_remove store key name).trans (if_pos (not_not.mp h).symm)

/-- What a call makes of a name depends only on what was there. -/
theorem raw?_congr (call : Call) (h : left.raw? name = right.raw? name) :
    (call.perform left).2.raw? name = (call.perform right).2.raw? name := by
  by_cases hspares : call.Spares name
  · rw [raw?_of_spares hspares, raw?_of_spares hspares, h]
  · rw [raw?_of_not_spares hspares, raw?_of_not_spares hspares]

/-- **Calls about different names can be exchanged.** -/
theorem perform_comm (h : first.key ≠ second.key) (store : Store) :
    (second.perform (first.perform store).2).2 = (first.perform (second.perform store).2).2 := by
  apply ext_raw?
  intro name
  by_cases hkey : first.key = name
  · have hspares : second.Spares name := spares_of_ne (hkey ▸ h.symm)
    rw [raw?_of_spares hspares]
    exact first.raw?_congr (raw?_of_spares hspares store).symm
  · have hspares : first.Spares name := spares_of_ne hkey
    rw [raw?_of_spares hspares]
    exact second.raw?_congr (raw?_of_spares hspares store)

/-- What a call gives back is the same after a call about another name. -/
theorem answer_of_ne (h : first.key ≠ second.key) (store : Store) :
    (second.perform (first.perform store).2).1 = (second.perform store).1 := by
  cases second with
  | set key value => rfl
  | remove key => exact raw?_of_spares (spares_of_ne h) store

end Call

/-! ## Lists of calls -/

/-- **The store after some calls**, which was empty before them. -/
def stored (calls : List Call) : Store :=
  calls.foldl (fun store call => (call.perform store).2) empty

/-- **The last value under a name**: a call sets a value of this form there, and all later
calls spare the name. -/
def LastSet (calls : List Call) (name : String) (json : Json) : Prop :=
  ∃ earlier call later, calls = earlier ++ call :: later
    ∧ call.key = name ∧ call.form? = some json ∧ ∀ other ∈ later, other.Spares name

variable {calls : List Call} {call : Call}

@[simp] theorem stored_concat :
    stored (calls ++ [call]) = (call.perform (stored calls)).2 := by
  unfold stored
  rw [List.foldl_append]
  rfl

theorem not_lastSet_nil : ¬ LastSet [] name json := by
  rintro ⟨earlier, call, later, hcalls, -⟩
  simp at hcalls

/-- **One more call** leaves the last value alone if it spares the name, and otherwise the
last value is what it sets. -/
theorem lastSet_concat :
    LastSet (calls ++ [call]) name json
      ↔ call.Spares name ∧ LastSet calls name json
        ∨ ¬ call.Spares name ∧ call.form? = some json := by
  constructor
  · rintro ⟨earlier, set, later, hcalls, hkey, hform, hlater⟩
    obtain ⟨rfl, rfl, rfl⟩ | ⟨middle, rfl, rfl⟩ := split_concat hcalls
    · exact .inr ⟨Call.not_spares_of_form? hkey hform, hform⟩
    · rw [List.forall_mem_append, List.forall_mem_singleton] at hlater
      exact .inl ⟨hlater.2, earlier, set, middle, rfl, hkey, hform, hlater.1⟩
  · rintro (⟨hspares, earlier, set, later, rfl, hkey, hform, hlater⟩ | ⟨hspares, hform⟩)
    · refine ⟨earlier, set, later ++ [call], by simp, hkey, hform, ?_⟩
      rw [List.forall_mem_append, List.forall_mem_singleton]
      exact ⟨hlater, hspares⟩
    · have hkey : call.key = name := not_not.mp fun hne => hspares (Call.spares_of_ne hne)
      exact ⟨calls, call, [], rfl, hkey, hform, List.forall_mem_nil _⟩

/-- **A store keeps the last values.** -/
theorem raw?_stored_iff : (stored calls).raw? name = some json ↔ LastSet calls name json := by
  induction calls using List.reverseRecOn with
  | nil => exact iff_of_false nofun not_lastSet_nil
  | append_singleton calls call ih =>
    rw [stored_concat, lastSet_concat, ← ih]
    by_cases hspares : call.Spares name
    · rw [Call.raw?_of_spares hspares, and_iff_right hspares]
      exact (or_iff_left fun h => h.1 hspares).symm
    · rw [Call.raw?_of_not_spares hspares, and_iff_right hspares]
      exact (or_iff_right fun h => hspares h.1).symm

/-- A store compares as equal to itself if only defined numbers were set. -/
theorem stored_beq_self (h : ∀ call ∈ calls, call.SetsDefined) :
    (stored calls == stored calls) = true := by
  rw [beq_iff]
  intro name
  cases hraw : (stored calls).raw? name with
  | none => rfl
  | some json =>
    obtain ⟨earlier, call, later, rfl, -, hform, -⟩ := raw?_stored_iff.mp hraw
    exact (Json.same_self json).trans
      (h call (List.mem_append_right _ List.mem_cons_self) json hform)

/-- **The last write wins.** After any calls on an empty store, what is kept under a name
is the form of the value that was set there last, of those that have a form, unless the
name was taken out since; then, or if no such value was ever set, nothing is kept. There is
a value under a name exactly if one is kept, to take a name out gives back what was kept
there and leaves all other names alone, the size is the number of names under which
something is kept, and a store is empty if this is none. A value is read from what is
kept, as far as this is possible, and otherwise the default is given back.

Two stores compare as equal exactly if what they keep under each name does. So two calls
about different names can be made in either order: the same store is left, and either of
them gives back the same. If no undefined number was ever set, the two orders also compare
as equal. -/
theorem last_write_wins (calls : List Call) (name : String) :
    (∀ json, (stored calls).raw? name = some json ↔ LastSet calls name json)
      ∧ ((stored calls).raw? name = none ↔ ∀ json, ¬ LastSet calls name json)
      ∧ (stored calls).contains name = ((stored calls).raw? name).isSome
      ∧ ((stored calls).remove name).1 = (stored calls).raw? name
      ∧ (∀ other, ((stored calls).remove name).2.raw? other
          = if other = name then none else (stored calls).raw? other)
      ∧ {key | ((stored calls).raw? key).isSome = true}.encard = (stored calls).size
      ∧ ((stored calls).isEmpty = true ↔ (stored calls).size = 0)
      ∧ (∀ (α : Type) [Readable α] (default : α),
          (∀ json value, (stored calls).raw? name = some json → Json.ofJson? json = some value →
            (stored calls).get name default = value)
          ∧ ((∀ json, (stored calls).raw? name = some json →
              Json.ofJson? json = (none : Option α)) →
            (stored calls).get name default = default))
      ∧ (∀ store, (stored calls == store) = true
          ↔ ∀ key, ((stored calls).raw? key == store.raw? key) = true)
      ∧ ∀ first second : Call, first.key ≠ second.key →
          stored (calls ++ [first, second]) = stored (calls ++ [second, first])
          ∧ (second.perform (stored (calls ++ [first]))).1 = (second.perform (stored calls)).1
          ∧ ((∀ call ∈ calls ++ [first, second], call.SetsDefined) →
            (stored (calls ++ [first, second]) == stored (calls ++ [second, first])) = true) := by
  refine ⟨fun _ => raw?_stored_iff, ?_, rfl, rfl, raw?_remove _ name, encard_names _,
    isEmpty_iff, fun α _ default => ⟨fun _ _ => get_eq_of_read, get_eq_default⟩,
    fun _ => beq_iff, fun first second h => ?_⟩
  · simp only [Option.eq_none_iff_forall_ne_some, ne_eq, raw?_stored_iff]
  · have hsame : stored (calls ++ [first, second]) = stored (calls ++ [second, first]) := by
      rw [List.append_cons, List.append_cons calls second, stored_concat, stored_concat,
        stored_concat, stored_concat]
      exact Call.perform_comm h _
    refine ⟨hsame, ?_, fun hdefined => ?_⟩
    · rw [stored_concat]
      exact Call.answer_of_ne h _
    · rw [← hsame]
      exact stored_beq_self hdefined

/-- Calls about what has been visited: a count is set and raised, and then a table with
pairs for keys, which has no form. The door is set and taken out, and the lamp is set. -/
def visits : List Call :=
  [.set "count" (41 : UInt32), .set "door" "open", .set "count" (42 : UInt32),
    .set "count" (Json.Table.mk [(((1 : Int), (2 : Int)), "corner")]), .remove "door",
    .set "lamp" true]

/-- The count is what it was raised to, the door is gone, and the lamp is no number. It
does not matter whether the lamp is taken out before the door is set again. -/
theorem last_write_wins_visits :
    (stored visits).raw? "count" = some (.int 42)
      ∧ (∀ json, ¬ LastSet visits "door" json)
      ∧ {key | ((stored visits).raw? key).isSome = true}.encard = 2
      ∧ (stored visits).get "count" (0 : UInt32) = 42
      ∧ (stored visits).get "lamp" (7 : UInt8) = 7
      ∧ (stored (visits ++ [.remove "lamp", .set "door" "shut"])
        == stored (visits ++ [.set "door" "shut", .remove "lamp"])) = true := by
  obtain ⟨hcount, -, -, -, -, hsize, -, hget, -, hexchange⟩ := last_write_wins visits "count"
  obtain ⟨-, hdoor, -⟩ := last_write_wins visits "door"
  obtain ⟨-, -, -, -, -, -, -, hlamp, -⟩ := last_write_wins visits "lamp"
  have hdefined : ∀ call ∈ visits ++ [.remove "lamp", .set "door" "shut"], call.SetsDefined := by
    simp only [visits, List.cons_append, List.nil_append, List.forall_mem_cons]
    refine ⟨?_, ?_, ?_, ?_, ?_, ?_, ?_, ?_, List.forall_mem_nil _⟩ <;> rintro json ⟨⟩ <;> rfl
  refine ⟨(hcount _).mpr ?_, hdoor.mp rfl, hsize, (hget UInt32 0).1 (.int 42) 42 rfl rfl,
    (hlamp UInt8 7).2 ?_, (hexchange _ _ (by decide)).2.2 hdefined⟩
  · -- the table has no form, and the other calls are about other names
    refine ⟨[_, _], .set "count" (42 : UInt32), [_, _, _], rfl, rfl, rfl, ?_⟩
    simp only [List.forall_mem_cons]
    have hapart : "door" ≠ "count" ∧ "lamp" ≠ "count" := by decide
    exact ⟨fun _ => rfl, hapart.1, fun h => absurd h hapart.2, List.forall_mem_nil _⟩
  · rintro json ⟨⟩
    rfl

end Store

end Statechart
