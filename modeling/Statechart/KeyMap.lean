/-!
# Maps from names to values, in the order of the names

The children of a node, its transitions, a store and a registry of actions are
all finite maps keyed by strings, and whatever lists one of them lists it in
ascending order of the keys.

A `KeyMap` is a chain of entries in which every key is greater than the one
before. The bound on the keys still to come is an index of the type, so a map
holds each key at most once, and two maps that answer alike are equal. Strings
are compared by their code points, which is also the order of their UTF-8 bytes.
-/

namespace Statechart

/-- **The keys that may come next**: any key at the start of a map, afterwards
the keys greater than the last one. -/
def KeyMap.Above : Option String → String → Prop
  | none, _ => True
  | some last, key => last < key

/-- **A map from strings to `α`**: entries in strictly ascending order of their
keys. A map as its users hold it has no bound; its tail is bounded by the key
before it. -/
inductive KeyMap (α : Type) : (bound : Option String := none) → Type where
  | nil {bound : Option String} : KeyMap α bound
  | cons {bound : Option String} (key : String) (above : KeyMap.Above bound key) (value : α)
      (rest : KeyMap α (some key)) : KeyMap α bound

namespace KeyMap

variable {α β : Type}

/-- What is above a key is above whatever the key is above. -/
theorem Above.trans {bound : Option String} {last key : String} (h : Above bound last)
    (hlt : last < key) : Above bound key := by
  cases bound with
  | none => trivial
  | some first => exact String.lt_trans h hlt

/-- The map without entries. -/
def empty : KeyMap α := .nil

instance : Inhabited (KeyMap α) := ⟨empty⟩

/-! ## Looking at a map -/

/-- The value under a key. -/
def get? {bound : Option String} (key : String) : KeyMap α bound → Option α
  | .nil => none
  | .cons first _ value rest => if key = first then some value else rest.get? key

/-- Whether a key is present. -/
def contains {bound : Option String} (key : String) (map : KeyMap α bound) : Bool :=
  (map.get? key).isSome

/-- The entries, in ascending order of their keys. -/
def toList {bound : Option String} : KeyMap α bound → List (String × α)
  | .nil => []
  | .cons key _ value rest => (key, value) :: rest.toList

/-- The keys, in ascending order. -/
def keys {bound : Option String} (map : KeyMap α bound) : List String :=
  map.toList.map (·.1)

/-- The values, in ascending order of their keys. -/
def values {bound : Option String} (map : KeyMap α bound) : List α :=
  map.toList.map (·.2)

/-- The number of keys. -/
def size {bound : Option String} : KeyMap α bound → Nat
  | .nil => 0
  | .cons _ _ _ rest => rest.size + 1

/-- Whether there is no entry at all. -/
def isEmpty {bound : Option String} : KeyMap α bound → Bool
  | .nil => true
  | .cons _ _ _ _ => false

/-! ## Changing a map -/

/-- The value under a key within the bound becomes `value`, whatever it was. -/
def insertAbove {bound : Option String} (key : String) (above : Above bound key) (value : α) :
    KeyMap α bound → KeyMap α bound
  | .nil => .cons key above value .nil
  | .cons first hfirst old rest =>
    if hlt : key < first then .cons key above value (.cons first hlt old rest)
    else if hgt : first < key then .cons first hfirst old (rest.insertAbove key hgt value)
    else .cons first hfirst value rest

/-- The value under `key` becomes `value`, whatever it was. -/
def insert (map : KeyMap α) (key : String) (value : α) : KeyMap α :=
  map.insertAbove key trivial value

/-- The tail of a map, seen as a map with the bound of the whole. -/
def weaken {bound : Option String} {key : String} (above : Above bound key) :
    KeyMap α (some key) → KeyMap α bound
  | .nil => .nil
  | .cons next hnext value rest => .cons next (above.trans hnext) value rest

/-- The entry of a key is taken out. -/
def erase {bound : Option String} (key : String) : KeyMap α bound → KeyMap α bound
  | .nil => .nil
  | .cons first hfirst value rest =>
    if key = first then rest.weaken hfirst else .cons first hfirst value (rest.erase key)

/-- Entries are stored one after the other, so of several with one key the last
counts. -/
def insertAll (map : KeyMap α) (entries : List (String × α)) : KeyMap α :=
  entries.foldl (fun filled entry => filled.insert entry.1 entry.2) map

/-- The map of a list of entries. Of several entries with one key the last
counts. -/
def ofList (entries : List (String × α)) : KeyMap α :=
  insertAll empty entries

/-- Both maps together. Where both have a key, the entry of `other` counts. -/
def union (map other : KeyMap α) : KeyMap α :=
  map.insertAll other.toList

/-! ## Equality -/

/-- Two maps are equal exactly if they hold the same entries. -/
protected def decEq [DecidableEq α] {bound : Option String} :
    (left right : KeyMap α bound) → Decidable (left = right)
  | .nil, .nil => isTrue rfl
  | .nil, .cons _ _ _ _ => isFalse nofun
  | .cons _ _ _ _, .nil => isFalse nofun
  | .cons key _ value rest, .cons key' _ value' rest' =>
    if hkey : key = key' then by
      subst hkey
      exact
        if hvalue : value = value' then
          match rest.decEq rest' with
          | isTrue hrest => isTrue (by subst hvalue hrest; rfl)
          | isFalse hrest => isFalse fun h => hrest (by cases h; rfl)
        else isFalse fun h => hvalue (by cases h; rfl)
    else isFalse fun h => hkey (by cases h; rfl)

instance [DecidableEq α] {bound : Option String} : DecidableEq (KeyMap α bound) :=
  KeyMap.decEq

end KeyMap

end Statechart
