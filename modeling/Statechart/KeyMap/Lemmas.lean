import Statechart.KeyMap

/-!
# What maps answer

Every operation on a map is described by what the map answers afterwards
(`KeyMap.get?_insert`, `KeyMap.get?_erase`), and a map is determined by its
answers (`KeyMap.ext_get?`). Its keys are strictly ascending
(`KeyMap.pairwise_keys`), and its entries are what it answers
(`KeyMap.mem_toList_iff`), so that it can be made again from them
(`KeyMap.ofList_toList`).
-/

namespace Statechart

namespace KeyMap

variable {α β : Type} {bound bound' : Option String}

/-! ## Keys within their bound -/

/-- A map answers only for keys within its bound. -/
theorem get?_of_not_above {key : String} (map : KeyMap α bound) (h : ¬ Above bound key) :
    map.get? key = none := by
  induction map with
  | nil => rfl
  | cons first above value rest ih =>
    have hne : key ≠ first := fun heq => h (heq ▸ above)
    have hrest : ¬ Above (some first) key := fun hlt => h (above.trans hlt)
    simp [get?, hne, ih hrest]

/-- The tail of a map does not answer for the key before it. -/
theorem get?_tail_self {key : String} (rest : KeyMap α (some key)) : rest.get? key = none :=
  get?_of_not_above rest (String.lt_irrefl key)

/-- The tail of a map answers only for greater keys. -/
theorem get?_tail_of_lt {first key : String} (rest : KeyMap α (some first)) (h : key < first) :
    rest.get? key = none :=
  get?_of_not_above rest fun hlt => String.lt_irrefl key (String.lt_trans h hlt)

/-! ## Answers after a change -/

@[simp] theorem get?_nil (key : String) : (nil : KeyMap α bound).get? key = none := rfl

@[simp] theorem get?_empty (key : String) : (empty : KeyMap α).get? key = none := rfl

theorem get?_insertAbove (map : KeyMap α bound) {key : String} (above : Above bound key)
    (value : α) (other : String) :
    (map.insertAbove key above value).get? other
      = if other = key then some value else map.get? other := by
  induction map with
  | nil => rfl
  | cons first hfirst old rest ih =>
    unfold insertAbove
    split
    · rfl
    · rename_i hge
      split
      · rename_i hlt
        have hrest := ih hlt
        by_cases h : other = first
        · have hne : other ≠ key := by
            rintro rfl
            exact String.lt_irrefl first (h ▸ hlt)
          simp [get?, h, h ▸ hne]
        · simpa [get?, h] using hrest
      · rename_i hle
        have heq : first = key := String.le_antisymm (String.not_lt.mp hge) (String.not_lt.mp hle)
        subst heq
        by_cases h : other = first <;> simp [get?, h]

/-- **A map answers with what was stored last.** -/
theorem get?_insert (map : KeyMap α) (key : String) (value : α) (other : String) :
    (map.insert key value).get? other = if other = key then some value else map.get? other :=
  get?_insertAbove map trivial value other

@[simp] theorem get?_insert_self (map : KeyMap α) (key : String) (value : α) :
    (map.insert key value).get? key = some value := by
  simp [get?_insert]

@[simp] theorem get?_weaken {first : String} (above : Above bound first)
    (rest : KeyMap α (some first)) (key : String) :
    (rest.weaken above).get? key = rest.get? key := by
  cases rest <;> rfl

/-- **A map does not answer for a key that was taken out.** -/
theorem get?_erase (map : KeyMap α bound) (key other : String) :
    (map.erase key).get? other = if other = key then none else map.get? other := by
  induction map with
  | nil => simp [erase]
  | cons first hfirst value rest ih =>
    unfold erase
    split
    · rename_i heq
      subst heq
      by_cases h : other = key
      · simp [h, get?_tail_self]
      · simp [get?, h]
    · rename_i hne
      simp only [get?, ih]
      by_cases h : other = first
      · simp [h, Ne.symm hne]
      · simp [h]

/-- Of several entries with one key the last counts. -/
theorem get?_insertAll (map : KeyMap α) (entries : List (String × α)) (key : String) :
    (map.insertAll entries).get? key
      = (entries.reverse.lookup key).or (map.get? key) := by
  induction entries generalizing map with
  | nil => rfl
  | cons entry rest ih =>
    obtain ⟨first, value⟩ := entry
    have hstep : map.insertAll ((first, value) :: rest) = (map.insert first value).insertAll rest :=
      rfl
    rw [hstep, ih, get?_insert, List.reverse_cons, List.lookup_append, List.lookup_cons,
      List.lookup_nil]
    by_cases h : key = first
    · cases rest.reverse.lookup key <;> simp [h]
    · have hne : (key == first) = false := beq_false_of_ne h
      cases rest.reverse.lookup key <;> simp [h, hne]

/-! ## The entries of a map -/

/-- **The entries are what the map answers.** -/
theorem mem_toList_iff {map : KeyMap α bound} {key : String} {value : α} :
    (key, value) ∈ map.toList ↔ map.get? key = some value := by
  induction map with
  | nil => simp [toList]
  | cons first above held rest ih =>
    simp only [toList, List.mem_cons, Prod.mk.injEq, ih, get?]
    by_cases h : key = first
    · subst h
      simp [get?_tail_self, eq_comm]
    · simp [h]

theorem mem_keys_iff {map : KeyMap α bound} {key : String} :
    key ∈ map.keys ↔ map.contains key = true := by
  simp only [keys, List.mem_map, contains, Option.isSome_iff_exists]
  constructor
  · rintro ⟨⟨_, value⟩, hmem, rfl⟩
    exact ⟨value, mem_toList_iff.mp hmem⟩
  · rintro ⟨value, hvalue⟩
    exact ⟨(key, value), mem_toList_iff.mpr hvalue, rfl⟩

/-- All keys of a map are within its bound. -/
theorem above_of_mem_keys {map : KeyMap α bound} {key : String} (h : key ∈ map.keys) :
    Above bound key := by
  apply Classical.byContradiction
  intro hnot
  rw [mem_keys_iff, contains, get?_of_not_above map hnot] at h
  exact absurd h (by simp)

/-- **The keys are strictly ascending.** -/
theorem pairwise_keys (map : KeyMap α bound) : map.keys.Pairwise (· < ·) := by
  induction map with
  | nil => exact List.Pairwise.nil
  | cons first above value rest ih =>
    exact List.Pairwise.cons (fun _ hmem => above_of_mem_keys (show _ ∈ rest.keys from hmem)) ih

/-- No key is there twice. -/
theorem nodup_keys (map : KeyMap α bound) : map.keys.Nodup :=
  (pairwise_keys map).imp String.ne_of_lt

theorem length_keys (map : KeyMap α bound) : map.keys.length = map.size := by
  induction map with
  | nil => rfl
  | cons first above value rest ih => exact congrArg (· + 1) ih

/-- Maps that have the same keys do not begin with different ones. -/
theorem not_first_lt {first first' : String} {above : Above bound first}
    {above' : Above bound' first'} {value : α} {value' : β} {rest : KeyMap α (some first)}
    {rest' : KeyMap β (some first')}
    (h : ∀ key, (cons first above value rest).contains key
      = (cons first' above' value' rest').contains key) : ¬ first < first' := by
  intro hlt
  have hne : first ≠ first' := by
    rintro rfl
    exact String.lt_irrefl first hlt
  simpa [contains, get?, hne, get?_tail_of_lt rest' hlt] using h first

/-- Maps that have the same keys begin with the same one. -/
theorem first_eq {first first' : String} {above : Above bound first}
    {above' : Above bound' first'} {value : α} {value' : β} {rest : KeyMap α (some first)}
    {rest' : KeyMap β (some first')}
    (h : ∀ key, (cons first above value rest).contains key
      = (cons first' above' value' rest').contains key) : first = first' :=
  String.le_antisymm (String.not_lt.mp (not_first_lt fun key => (h key).symm))
    (String.not_lt.mp (not_first_lt h))

/-- **A map is determined by its answers.** -/
theorem ext_get? {left right : KeyMap α bound} (h : ∀ key, left.get? key = right.get? key) :
    left = right := by
  induction left with
  | nil =>
    cases right with
    | nil => rfl
    | cons first above value rest => simpa [get?] using h first
  | cons first above value rest ih =>
    cases right with
    | nil => simpa [get?] using h first
    | cons first' above' value' rest' =>
      obtain rfl := first_eq fun key => congrArg Option.isSome (h key)
      have hvalue : value = value' := by simpa [get?] using h first
      have hrest : rest = rest' := ih fun key => by
        by_cases hkey : key = first
        · rw [hkey, get?_tail_self, get?_tail_self]
        · simpa [get?, hkey] using h key
      rw [hvalue, hrest]

theorem lookup_reverse_toList (map : KeyMap α bound) (key : String) :
    map.toList.reverse.lookup key = map.get? key := by
  induction map with
  | nil => rfl
  | cons first above value rest ih =>
    rw [toList, List.reverse_cons, List.lookup_append, ih, List.lookup_cons, List.lookup_nil, get?]
    by_cases h : key = first
    · simp [h, get?_tail_self]
    · simp [h, beq_false_of_ne h]

/-- **Of two maps together** the second one answers first. -/
theorem get?_union (map other : KeyMap α) (key : String) :
    (map.union other).get? key = (other.get? key).or (map.get? key) := by
  rw [union, get?_insertAll, lookup_reverse_toList]

/-- **A map is made again from its entries.** -/
theorem ofList_toList (map : KeyMap α) : ofList map.toList = map := by
  apply ext_get?
  intro key
  rw [ofList, get?_insertAll, lookup_reverse_toList, get?_empty, Option.or_none]

/-- The keys of a map made from entries are theirs. -/
theorem mem_keys_ofList {entries : List (String × α)} {key : String} :
    key ∈ (ofList entries).keys ↔ ∃ value, (key, value) ∈ entries := by
  rw [mem_keys_iff, contains, ofList, get?_insertAll, get?_empty, Option.or_none,
    List.lookup_isSome_iff]
  constructor
  · rintro ⟨⟨first, value⟩, hmem, hkey⟩
    rw [eq_of_beq hkey]
    exact ⟨value, List.mem_reverse.mp hmem⟩
  · rintro ⟨value, hmem⟩
    exact ⟨(key, value), List.mem_reverse.mpr hmem, beq_self_eq_true key⟩

/-- What is there already need not be stored. -/
theorem insert_eq_self {map : KeyMap α} {key : String} {value : α}
    (h : map.get? key = some value) : map.insert key value = map := by
  apply ext_get?
  intro asked
  rw [get?_insert]
  split
  · rename_i heq
    rw [heq, h]
  · rfl

end KeyMap

end Statechart
