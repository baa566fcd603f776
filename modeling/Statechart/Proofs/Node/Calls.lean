import Statechart.Proofs.Node.Built

/-!
# What a node under construction holds

Of each of its parts a node under construction holds what was said of it last: that is the initial
child, both actions, the target of each event, and the child under each id
(`Node.Builder.child?_ofCalls` and its neighbours). A child that another one replaces is not
forgotten altogether, for its id is remembered, as often as it happens
(`Node.Builder.duplicates_ofCalls`).
-/

namespace Statechart

namespace Node

namespace Builder

/-! ## What is said by calls -/

namespace Call

/-- The initial child that a call names. -/
def initials : Call → List String
  | .initial id => [id]
  | _ => []

/-- The target that a call gives to an event. -/
def targets (event : String) : Call → List Target
  | .on other target => if other = event then [target] else []
  | _ => []

/-- The entry action that a call names. -/
def entries : Call → List String
  | .entry action => [action]
  | _ => []

/-- The exit action that a call names. -/
def exits : Call → List String
  | .exit action => [action]
  | _ => []

end Call

/-- The children that are given by calls and have a certain id. -/
def givenAs (key : String) (calls : List Call) : List Node :=
  (calls.flatMap Call.given).filter fun child => child.id = key

/-- The node under construction after some calls. -/
def ofCalls (id : String) (calls : List Call) : Builder := calls.foldl perform (new id)

variable {builder : Builder} {calls : List Call} {id key : String}

theorem mem_givenAs {child : Node} :
    child ∈ givenAs key calls ↔ child ∈ calls.flatMap Call.given ∧ child.id = key := by
  unfold givenAs
  rw [List.mem_filter, decide_eq_true_eq]

/-- An id is given as often as there are children that are given with it. -/
theorem count_ids (key : String) (calls : List Call) :
    ((calls.flatMap Call.given).map Node.id).count key = (givenAs key calls).length := by
  unfold givenAs
  rw [List.count, List.countP_map, List.countP_eq_length_filter]
  rfl

/-! ## The last call counts

What is read off a builder is settled by the last call that says something about it, if any. -/

/-- **What each step overwrites** with the last thing it writes, if it writes at all, is in the end
the last thing that was written. -/
theorem read_foldl {α β γ : Type} {step : β → γ → β} (read : β → Option α) (writes : γ → List α)
    (h : ∀ state input, read (step state input) = (writes input).getLast?.or (read state))
    (inputs : List γ) (state : β) :
    read (inputs.foldl step state) = (inputs.flatMap writes).getLast?.or (read state) := by
  induction inputs generalizing state with
  | nil => rw [List.foldl_nil, List.flatMap_nil, List.getLast?_nil, Option.none_or]
  | cons input inputs ih =>
    rw [List.foldl_cons, ih, h, List.flatMap_cons, List.getLast?_append, Option.or_assoc]

theorem read_ofCalls {α : Type} (read : Builder → Option α) (writes : Call → List α)
    (h : ∀ builder call, read (builder.perform call) = (writes call).getLast?.or (read builder))
    (hnew : read (new id) = none) (calls : List Call) :
    read (ofCalls id calls) = (calls.flatMap writes).getLast? := by
  rw [ofCalls, read_foldl read writes h, hnew, Option.or_none]

/-- What one more child leaves alone, several do. -/
theorem foldl_state_keeps {α : Type} (read : Builder → α)
    (h : ∀ builder child, read (builder.state child) = read builder) (children : List Node)
    (builder : Builder) : read (children.foldl state builder) = read builder := by
  induction children generalizing builder with
  | nil => rfl
  | cons child children ih => rw [List.foldl_cons, ih, h]

theorem id_ofCalls (id : String) (calls : List Call) : (ofCalls id calls).node.id = id := by
  have hstep (builder : Builder) (call : Call) :
      (builder.perform call).node.id = builder.node.id := by
    cases call with
    | states children => exact foldl_state_keeps (·.node.id) (fun _ _ => rfl) children builder
    | _ => rfl
  unfold ofCalls
  induction calls using List.reverseRecOn with
  | nil => rfl
  | append_singleton calls call ih => rw [List.foldl_concat, hstep, ih]

/-- The initial child is the one that was chosen last. -/
theorem initial_ofCalls (id : String) (calls : List Call) :
    (ofCalls id calls).node.initial = (calls.flatMap Call.initials).getLast? := by
  refine read_ofCalls (·.node.initial) Call.initials (fun builder call => ?_) rfl calls
  cases call with
  | states children => exact foldl_state_keeps (·.node.initial) (fun _ _ => rfl) children builder
  | _ => rfl

/-- The entry action is the one that was named last. -/
theorem entry_ofCalls (id : String) (calls : List Call) :
    (ofCalls id calls).node.entry = (calls.flatMap Call.entries).getLast? := by
  refine read_ofCalls (·.node.entry) Call.entries (fun builder call => ?_) rfl calls
  cases call with
  | states children => exact foldl_state_keeps (·.node.entry) (fun _ _ => rfl) children builder
  | _ => rfl

/-- The exit action is the one that was named last. -/
theorem exit_ofCalls (id : String) (calls : List Call) :
    (ofCalls id calls).node.exit = (calls.flatMap Call.exits).getLast? := by
  refine read_ofCalls (·.node.exit) Call.exits (fun builder call => ?_) rfl calls
  cases call with
  | states children => exact foldl_state_keeps (·.node.exit) (fun _ _ => rfl) children builder
  | _ => rfl

/-- The target of an event is the one that was given to it last. -/
theorem transition?_ofCalls (id : String) (calls : List Call) (event : String) :
    (ofCalls id calls).node.transition? event
      = (calls.flatMap (Call.targets event)).getLast? := by
  refine read_ofCalls (·.node.transition? event) (Call.targets event) (fun builder call => ?_) rfl
    calls
  cases call with
  | states children =>
    exact foldl_state_keeps (·.node.transition? event) (fun _ _ => rfl) children builder
  | on other target =>
    show (builder.node.transitions.insert other target).get? event = _
    rw [KeyMap.get?_insert, Call.targets]
    by_cases h : other = event
    · rw [if_pos h.symm, if_pos h]
      rfl
    · rw [if_neg (Ne.symm h), if_neg h]
      rfl
  | _ => rfl

theorem child?_state (key : String) (builder : Builder) (child : Node) :
    (builder.state child).node.child? key
      = ([child].filter fun child => child.id = key).getLast?.or (builder.node.child? key) := by
  show (builder.node.children.insert child.id child).get? key = _
  rw [KeyMap.get?_insert]
  by_cases h : child.id = key
  · rw [if_pos h.symm, List.filter_cons_of_pos (by simpa using h)]
    rfl
  · rw [if_neg (Ne.symm h), List.filter_cons_of_neg (by simpa using h)]
    rfl

/-- **The child under an id** is the one that was given with it last. -/
theorem child?_ofCalls (id : String) (calls : List Call) (key : String) :
    (ofCalls id calls).node.child? key = (givenAs key calls).getLast? := by
  unfold givenAs
  rw [List.filter_flatMap]
  refine read_ofCalls (·.node.child? key) _ (fun builder call => ?_) rfl calls
  cases call with
  | state child => exact child?_state key builder child
  | states children =>
    have hread := read_foldl (·.node.child? key) _ (child?_state key) children builder
    rwa [← List.filter_flatMap, List.flatMap_singleton'] at hread
  | _ => rfl

/-- A node under construction is a leaf until it is given a child. -/
theorem isLeaf_ofCalls_iff (id : String) (calls : List Call) :
    (ofCalls id calls).node.isLeaf = true ↔ calls.flatMap Call.given = [] := by
  rw [← not_iff_not, Bool.not_eq_true, isLeaf_eq_false_iff]
  simp only [child?_ofCalls]
  constructor
  · rintro ⟨key, child, hchild⟩ hnil
    have hmem := (mem_givenAs.mp (List.mem_of_getLast? hchild)).1
    rw [hnil] at hmem
    exact nomatch hmem
  · intro hne
    obtain ⟨child, hmem⟩ := List.exists_mem_of_ne_nil _ hne
    have hgiven : givenAs child.id calls ≠ [] := List.ne_nil_of_mem (mem_givenAs.mpr ⟨hmem, rfl⟩)
    exact ⟨child.id, _, List.getLast?_eq_some_getLast hgiven⟩

/-! ## Children that replace others -/

/-- The ids that have occurred before in a list, each as often as that. -/
def repeats (ids : List String) : List String :=
  ids.zipIdx.filterMap fun (id, place) => if id ∈ ids.take place then some id else none

theorem repeats_concat (ids : List String) (id : String) :
    repeats (ids ++ [id]) = repeats ids ++ if id ∈ ids then [id] else [] := by
  unfold repeats
  rw [List.zipIdx_append, List.filterMap_append, List.zipIdx_singleton, Nat.zero_add]
  congr 1
  · refine List.filterMap_congr fun (other, place) hmem => ?_
    have hlt : place < ids.length := List.snd_lt_of_mem_zipIdx hmem
    dsimp only
    rw [List.take_append_of_le_length (Nat.le_of_lt hlt)]
  · rw [List.filterMap_eq_flatMap_toList, List.flatMap_singleton]
    dsimp only
    rw [List.take_left]
    split_ifs <;> rfl

/-- **Of several equal ids** all but the first are repeats. -/
theorem count_repeats (ids : List String) (id : String) :
    (repeats ids).count id = ids.count id - 1 := by
  induction ids using List.reverseRecOn with
  | nil => rfl
  | append_singleton ids last ih =>
    rw [repeats_concat, List.count_append, List.count_append, ih]
    by_cases hmem : last ∈ ids
    · rw [if_pos hmem]
      by_cases h : last = id
      · have hpos : 0 < ids.count id := List.count_pos_iff.mpr (h ▸ hmem)
        rw [h, List.count_singleton_self]
        omega
      · rw [List.count_singleton, beq_false_of_ne h]
        simp
    · rw [if_neg hmem, List.count_nil, List.count_singleton]
      by_cases h : last = id
      · rw [h] at hmem
        rw [List.count_eq_zero.mpr hmem]
        simp [h]
      · simp [h]

/-- There are no repeats exactly if no id is there twice. -/
theorem repeats_eq_nil_iff {ids : List String} : repeats ids = [] ↔ ids.Nodup := by
  rw [List.nodup_iff_count_le_one, List.eq_nil_iff_forall_not_mem]
  refine forall_congr' fun id => ?_
  rw [← List.count_eq_zero, count_repeats]
  omega

/-- **A builder that has seen children with some ids**: it has a child under each of them, and
remembers those that occurred before. -/
structure HasSeen (builder : Builder) (ids : List String) : Prop where
  /-- There are children under these ids and no others. -/
  contains_iff : ∀ key, builder.node.children.contains key = true ↔ key ∈ ids
  /-- The repeats are remembered. -/
  duplicates : builder.duplicates = repeats ids

namespace HasSeen

variable {ids : List String}

theorem state (h : builder.HasSeen ids) (child : Node) :
    (builder.state child).HasSeen (ids ++ [child.id]) where
  contains_iff key := by
    show ((builder.node.children.insert child.id child).get? key).isSome = true ↔ _
    rw [KeyMap.get?_insert, List.mem_append, List.mem_singleton, ← h.contains_iff key]
    by_cases heq : key = child.id
    · rw [if_pos heq]
      exact iff_of_true rfl (Or.inr heq)
    · rw [if_neg heq, or_iff_left heq]
      rfl
  duplicates := by
    show (if builder.node.children.contains child.id = true then _ else _) = _
    rw [repeats_concat, h.duplicates]
    simp only [h.contains_iff]
    split_ifs with hmem
    · rfl
    · rw [List.append_nil]

theorem states (h : builder.HasSeen ids) (children : List Node) :
    (children.foldl Builder.state builder).HasSeen (ids ++ children.map Node.id) := by
  induction children generalizing builder ids with
  | nil => rwa [List.map_nil, List.append_nil]
  | cons child children ih =>
    have hrest := ih (h.state child)
    rwa [List.append_assoc, List.singleton_append] at hrest

/-- **A call shows a builder the children that it gives.** -/
theorem perform (h : builder.HasSeen ids) (call : Call) :
    (builder.perform call).HasSeen (ids ++ call.given.map Node.id) := by
  cases call with
  | state child => exact h.state child
  | states children => exact h.states children
  | initial _ | on _ _ | entry _ | exit _ =>
    -- nothing is given, so nothing new is seen
    show HasSeen _ (ids ++ [])
    rw [List.append_nil]
    exact ⟨h.contains_iff, h.duplicates⟩

theorem ofCalls (id : String) (calls : List Call) :
    (ofCalls id calls).HasSeen ((calls.flatMap Call.given).map Node.id) := by
  unfold Builder.ofCalls
  induction calls using List.reverseRecOn with
  | nil => exact ⟨fun key => iff_of_false nofun nofun, rfl⟩
  | append_singleton calls call ih =>
    rw [List.foldl_concat, List.flatMap_append, List.flatMap_singleton, List.map_append]
    exact ih.perform call

end HasSeen

/-- **The children that replace others are remembered**, in the order of the calls. -/
theorem duplicates_ofCalls (id : String) (calls : List Call) :
    (ofCalls id calls).duplicates = repeats ((calls.flatMap Call.given).map Node.id) :=
  (HasSeen.ofCalls id calls).duplicates

end Builder

end Node

end Statechart
