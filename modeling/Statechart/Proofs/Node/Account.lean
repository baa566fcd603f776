import Statechart.Proofs.Node.Calls
import Statechart.Proofs.Path.Dotted

/-!
# What comes of building

Nothing but the calls is needed to say what comes of building. All that can be wrong with a node is
seen from them (`Node.Builder.complaints`), and if there is nothing, the node has all that they gave
to it (`Node.Gathers`): children are never lost, because one that takes the place of another is a
fault.

What is said of one part does not touch the others, so calls that are about different parts can be
made in any order (`Node.Builder.Reordered`). `Node.build_accounts` puts this together.
-/

namespace Statechart

namespace Node

/-- **A node is determined by its id, what it answers, and what else it names.** -/
theorem ext_answers {node node' : Node} (hid : node.id = node'.id)
    (hinitial : node.initial = node'.initial) (hchild : ∀ key, node.child? key = node'.child? key)
    (htransition : ∀ event, node.transition? event = node'.transition? event)
    (hentry : node.entry = node'.entry) (hexit : node.exit = node'.exit) : node = node' := by
  have hchildren : node.children = node'.children := KeyMap.ext_get? hchild
  have htransitions : node.transitions = node'.transitions := KeyMap.ext_get? htransition
  cases node
  cases node'
  dsimp only at hid hinitial hchildren htransitions hentry hexit
  rw [hid, hinitial, hchildren, htransitions, hentry, hexit]

namespace Builder

variable {call call' : Call} {before after calls calls' : List Call} {id key : String}

/-! ## What is wrong with calls -/

/-- What is wrong with the choice of an initial child: there are children, but none is chosen, or
none of them was chosen last. -/
def initialComplaint (id : String) (calls : List Call) : List MachineError :=
  if calls.flatMap Call.given = [] then []
  else match (calls.flatMap Call.initials).getLast? with
    | none => [.missingInitial id]
    | some key => if givenAs key calls = [] then [.unknownState (id ++ "." ++ key)] else []

/-- **Everything that is wrong with calls**: the id of the node, the children whose id was given to
a child before, and the choice of an initial child. -/
def complaints (id : String) (calls : List Call) : List MachineError :=
  (if id = "" ∨ '.' ∈ id.toList then [.invalidStateId id] else [])
    ++ (repeats ((calls.flatMap Call.given).map Node.id)).map .duplicateState
    ++ initialComplaint id calls

theorem initialFaults_ofCalls (id : String) (calls : List Call) :
    initialFaults (ofCalls id calls).node = initialComplaint id calls := by
  unfold initialFaults initialComplaint
  by_cases hnil : calls.flatMap Call.given = []
  · rw [if_pos ((isLeaf_ofCalls_iff id calls).mpr hnil), if_pos hnil]
  · rw [if_neg (mt (isLeaf_ofCalls_iff id calls).mp hnil), if_neg hnil, initial_ofCalls, id_ofCalls]
    cases (calls.flatMap Call.initials).getLast? with
    | none => rfl
    | some key =>
      dsimp only
      rw [child?_ofCalls]
      by_cases hkey : givenAs key calls = []
      · rw [if_pos hkey, hkey]
        rfl
      · rw [if_neg hkey, if_neg (by simpa using hkey)]

/-- **The faults of a node under construction** are what is wrong with the calls. -/
theorem faults_ofCalls (id : String) (calls : List Call) :
    (ofCalls id calls).faults = complaints id calls := by
  have hid : isStateId id = true ↔ ¬ (id = "" ∨ '.' ∈ id.toList) := by
    rw [isStateId_iff, Ne, String.toList_eq_nil_iff, not_or]
  unfold faults complaints
  rw [id_ofCalls, duplicates_ofCalls, initialFaults_ofCalls]
  simp only [hid, ite_not]

theorem errors_of_mem_complaints {fault : MachineError} (h : fault ∈ complaints id calls) :
    fault.errors = [fault] := by
  unfold complaints initialComplaint at h
  rw [List.mem_append, List.mem_append] at h
  obtain (hid | hrepeat) | hinitial := h
  · split at hid
    · rw [List.mem_singleton.mp hid]
      rfl
    · exact nomatch hid
  · obtain ⟨other, -, rfl⟩ := List.mem_map.mp hrepeat
    rfl
  · split at hinitial
    · exact nomatch hinitial
    · split at hinitial
      · rw [List.mem_singleton.mp hinitial]
        rfl
      · split at hinitial
        · rw [List.mem_singleton.mp hinitial]
          rfl
        · exact nomatch hinitial

/-! ## Calls in another order -/

/-- **The same calls in another order**, as far as the order matters: those that give a child with
one id, or a target to one event, or an initial child, or an action, come in the order in which
they came. -/
structure Reordered (calls calls' : List Call) : Prop where
  /-- The children with one id are the same. -/
  given : ∀ key, givenAs key calls' = givenAs key calls
  /-- The targets of one event are. -/
  targets : ∀ event, calls'.flatMap (Call.targets event) = calls.flatMap (Call.targets event)
  /-- The initial children are. -/
  initials : calls'.flatMap Call.initials = calls.flatMap Call.initials
  /-- The entry actions are. -/
  entries : calls'.flatMap Call.entries = calls.flatMap Call.entries
  /-- The exit actions are. -/
  exits : calls'.flatMap Call.exits = calls.flatMap Call.exits

/-- **Two calls about different things**: children with different ids, targets of different events,
or different fields. -/
structure Call.Apart (call call' : Call) : Prop where
  /-- No child of the one has the id of a child of the other. -/
  given : ∀ child ∈ call.given, ∀ child' ∈ call'.given, child.id ≠ child'.id
  /-- No event gets a target from both. -/
  targets : ∀ event, call.targets event = [] ∨ call'.targets event = []
  /-- Not both choose an initial child. -/
  initials : call.initials = [] ∨ call'.initials = []
  /-- Not both name an entry action. -/
  entries : call.entries = [] ∨ call'.entries = []
  /-- Not both name an exit action. -/
  exits : call.exits = [] ∨ call'.exits = []

/-- Where one of two neighbours says nothing, they can be exchanged. -/
theorem flatMap_exchange {α : Type} {said : Call → List α} (h : said call = [] ∨ said call' = []) :
    (before ++ call' :: call :: after).flatMap said
      = (before ++ call :: call' :: after).flatMap said := by
  simp only [List.flatMap_append, List.flatMap_cons]
  obtain h | h := h
  · rw [h, List.nil_append, List.nil_append]
  · rw [h, List.nil_append, List.nil_append]

namespace Reordered

/-- **Neighbours that are about different things** can be exchanged. -/
theorem exchange (h : call.Apart call') :
    Reordered (before ++ call :: call' :: after) (before ++ call' :: call :: after) where
  given key := by
    unfold givenAs
    rw [List.filter_flatMap, List.filter_flatMap]
    refine flatMap_exchange (or_iff_not_imp_left.mpr fun hne => ?_)
    -- if one of them gives a child with the key, the other gives none
    obtain ⟨child, hmem⟩ := List.exists_mem_of_ne_nil _ hne
    obtain ⟨hgiven, hkey⟩ := List.mem_filter.mp hmem
    refine List.filter_eq_nil_iff.mpr fun child' hgiven' hkey' => ?_
    exact h.given child hgiven child' hgiven'
      ((of_decide_eq_true hkey).trans (of_decide_eq_true hkey').symm)
  targets event := flatMap_exchange (h.targets event)
  initials := flatMap_exchange h.initials
  entries := flatMap_exchange h.entries
  exits := flatMap_exchange h.exits

/-- **Calls make the same node in any order** that keeps what is about one part in its order. -/
theorem node_eq (h : Reordered calls calls') (id : String) :
    (ofCalls id calls').node = (ofCalls id calls).node := by
  refine ext_answers ?_ ?_ (fun key => ?_) (fun event => ?_) ?_ ?_
  · rw [id_ofCalls, id_ofCalls]
  · rw [initial_ofCalls, initial_ofCalls, h.initials]
  · rw [child?_ofCalls, child?_ofCalls, h.given]
  · rw [transition?_ofCalls, transition?_ofCalls, h.targets]
  · rw [entry_ofCalls, entry_ofCalls, h.entries]
  · rw [exit_ofCalls, exit_ofCalls, h.exits]

/-- The same ids are repeated. -/
theorem perm_repeats (h : Reordered calls calls') :
    (repeats ((calls'.flatMap Call.given).map Node.id)).Perm
      (repeats ((calls.flatMap Call.given).map Node.id)) := by
  refine List.perm_iff_count.mpr fun key => ?_
  rw [count_repeats, count_repeats, count_ids, count_ids, h.given]

theorem initialComplaint_eq (h : Reordered calls calls') (id : String) :
    initialComplaint id calls' = initialComplaint id calls := by
  have hleaf : calls'.flatMap Call.given = [] ↔ calls.flatMap Call.given = [] := by
    rw [← isLeaf_ofCalls_iff id, ← isLeaf_ofCalls_iff id, h.node_eq]
  unfold initialComplaint
  rw [h.initials]
  simp only [hleaf, h.given]

/-- **The same is wrong with calls in another order**, but it may be found in another order. -/
theorem perm_complaints (h : Reordered calls calls') (id : String) :
    (complaints id calls').Perm (complaints id calls) := by
  unfold complaints
  rw [h.initialComplaint_eq]
  exact ((h.perm_repeats.map _).append_left _).append_right _

end Reordered

end Builder

/-! ## The finished node -/

/-- **A node has what calls gave to it**: the children, each under its own id, and of anything that
was said several times the last. -/
structure Gathers (node : Node) (id : String) (calls : List Builder.Call) : Prop where
  /-- It has the id with which it was begun. -/
  id : node.id = id
  /-- Its children are those that were given, each under its own id. -/
  children : node.children.toList.Perm
    ((calls.flatMap Builder.Call.given).map fun child => (child.id, child))
  /-- Each event has the target that was given to it last. -/
  transition : ∀ event,
    node.transition? event = (calls.flatMap (Builder.Call.targets event)).getLast?
  /-- Its initial child is the one that was chosen last. -/
  initial : node.initial = (calls.flatMap Builder.Call.initials).getLast?
  /-- Its entry action is the one that was named last. -/
  entry : node.entry = (calls.flatMap Builder.Call.entries).getLast?
  /-- Its exit action is the one that was named last. -/
  exit : node.exit = (calls.flatMap Builder.Call.exits).getLast?

namespace Builder

variable {calls : List Call} {id key : String}

/-- Where no id is repeated, the child under an id is the one that was given with it. -/
theorem child?_ofCalls_eq_some_iff {child : Node}
    (h : ((calls.flatMap Call.given).map Node.id).Nodup) :
    (ofCalls id calls).node.child? key = some child
      ↔ child ∈ calls.flatMap Call.given ∧ child.id = key := by
  rw [child?_ofCalls, ← mem_givenAs]
  refine ⟨List.mem_of_getLast?, fun hmem => ?_⟩
  rw [List.getLast?_eq_some_getLast (List.ne_nil_of_mem hmem), Option.some.injEq]
  -- no other child has the id
  obtain ⟨hlast, hkey⟩ := mem_givenAs.mp (List.getLast_mem (List.ne_nil_of_mem hmem))
  obtain ⟨hgiven, hkey'⟩ := mem_givenAs.mp hmem
  exact List.inj_on_of_nodup_map h hlast hgiven (hkey.trans hkey'.symm)

/-- **A node has what calls gave to it**, if they gave no id to two children. -/
theorem gathers_ofCalls (h : repeats ((calls.flatMap Call.given).map Node.id) = []) :
    (ofCalls id calls).node.Gathers id calls where
  id := id_ofCalls id calls
  children := by
    have hids := repeats_eq_nil_iff.mp h
    have hkeys : (ofCalls id calls).node.children.keys.Nodup :=
      (KeyMap.pairwise_keys _).imp fun hlt => String.ne_of_lt hlt
    refine (List.perm_ext_iff_of_nodup (.of_map _ hkeys) (.of_map Prod.fst ?_)).mpr ?_
    · rw [List.map_map]
      exact hids
    · rintro ⟨key, child⟩
      refine KeyMap.mem_toList_iff.trans ((child?_ofCalls_eq_some_iff hids).trans ?_)
      rw [List.mem_map]
      constructor
      · rintro ⟨hmem, rfl⟩
        exact ⟨child, hmem, rfl⟩
      · rintro ⟨_, hmem, heq⟩
        cases heq
        exact ⟨hmem, rfl⟩
  transition := transition?_ofCalls id calls
  initial := initial_ofCalls id calls
  entry := entry_ofCalls id calls
  exit := exit_ofCalls id calls

/-- **What comes of building** is decided by what is wrong with the calls. -/
theorem build_eq (id : String) (calls : List Call) : Node.build id calls
    = MachineError.unlessFaulty (complaints id calls) (ofCalls id calls).node := by
  rw [← faults_ofCalls]
  rfl

end Builder

/-- **Building accounts for every call.** Whatever the calls are, there is a node exactly if nothing
is wrong with them. If something is, the single faults of the error are all that is wrong, in order;
a fault that is alone is the error itself, and several stand in it together. A node that is built
has what the calls gave to it: all children, and of anything else what was said last. So calls that
are about different children, events or fields can be made in any order: the same node is built, or
the same is wrong. -/
theorem build_accounts (id : String) (calls : List Builder.Call) :
    ((∃ node, Node.build id calls = .ok node) ↔ Builder.complaints id calls = [])
      ∧ (∀ error, Node.build id calls = .error error →
          error.errors = Builder.complaints id calls
            ∧ (∀ fault, error.errors = [fault] → error = fault)
            ∧ (1 < error.errors.length → error = .invalidConfig error.errors))
      ∧ (∀ node, Node.build id calls = .ok node → node.Gathers id calls)
      ∧ (∀ calls', Builder.Reordered calls calls' →
          (∀ node, Node.build id calls' = .ok node ↔ Node.build id calls = .ok node)
            ∧ (Builder.complaints id calls').Perm (Builder.complaints id calls))
      ∧ ∀ before call call' after, calls = before ++ call :: call' :: after → call.Apart call' →
          Builder.Reordered calls (before ++ call' :: call :: after) := by
  simp only [Builder.build_eq, MachineError.unlessFaulty_eq_ok_iff,
    MachineError.unlessFaulty_eq_error_iff]
  refine ⟨?_, ?_, ?_, fun calls' h => ?_, fun before call call' after hcalls hapart => ?_⟩
  · rw [exists_and_left, and_iff_left ⟨_, rfl⟩]
  · rintro error ⟨-, rfl⟩
    exact MachineError.ofFaults_gathers fun _ => Builder.errors_of_mem_complaints
  · rintro _ ⟨hnil, rfl⟩
    unfold Builder.complaints at hnil
    have hrepeats := (List.append_eq_nil_iff.mp (List.append_eq_nil_iff.mp hnil).1).2
    exact Builder.gathers_ofCalls (List.map_eq_nil_iff.mp hrepeats)
  · have hperm := h.perm_complaints id
    have hnil : Builder.complaints id calls' = [] ↔ Builder.complaints id calls = [] :=
      ⟨fun h => List.perm_nil.mp (h ▸ hperm.symm), fun h => List.perm_nil.mp (h ▸ hperm)⟩
    refine ⟨fun node => ?_, hperm⟩
    rw [hnil, h.node_eq]
  · rw [hcalls]
    exact .exchange hapart

/-- Calls for a lamp: its state is chosen twice, and so is what flipping it does. -/
def lampCalls : List Builder.Call :=
  [.initial "on", .state (leaf "off"), .on "flip" (.sibling "on"), .state (leaf "on"),
    .initial "off", .on "flip" (.sibling "off")]

/-- The last choices count, also if the second state is added before the lamp is first told what
flipping it does. A lamp with a dot in its id, three times the same state, and nothing but a state
it has not got to start in has four faults. -/
theorem build_accounts_lamp : ∃ node error,
    Node.build "lamp" lampCalls = .ok node
      ∧ node.initial = some "off" ∧ node.transition? "flip" = some (.sibling "off")
      ∧ node.children.toList.Perm [("off", leaf "off"), ("on", leaf "on")]
      ∧ Node.build "lamp" [.initial "on", .state (leaf "off"), .state (leaf "on"),
          .on "flip" (.sibling "on"), .initial "off", .on "flip" (.sibling "off")] = .ok node
      ∧ Node.build "la.mp" [.states [leaf "off", leaf "on", leaf "off"], .initial "dim",
          .state (leaf "off")] = .error error
      ∧ error.errors = [.invalidStateId "la.mp", .duplicateState "off", .duplicateState "off",
          .unknownState "la.mp.dim"]
      ∧ error = .invalidConfig error.errors := by
  obtain ⟨hbuilt, -, hgathers, hreordered, hexchange⟩ := build_accounts "lamp" lampCalls
  obtain ⟨node, hnode⟩ := hbuilt.mpr rfl
  have hgathered := hgathers node hnode
  have hapart : Builder.Call.Apart (.on "flip" (.sibling "on")) (.state (leaf "on")) :=
    ⟨nofun, fun _ => .inr rfl, .inl rfl, .inl rfl, .inl rfl⟩
  have hsame := hreordered _ (hexchange [.initial "on", .state (leaf "off")] _ _ _ rfl hapart)
  have hwrong : Node.build "la.mp" [.states [leaf "off", leaf "on", leaf "off"], .initial "dim",
    .state (leaf "off")] = .error (.invalidConfig [.invalidStateId "la.mp", .duplicateState "off",
      .duplicateState "off", .unknownState "la.mp.dim"]) := rfl
  obtain ⟨herrors, -, hseveral⟩ := (build_accounts "la.mp" _).2.1 _ hwrong
  exact ⟨node, _, hnode, hgathered.initial, hgathered.transition "flip", hgathered.children,
    (hsame.1 node).mpr hnode, hwrong, herrors, hseveral (by rw [herrors]; decide)⟩

end Node

end Statechart
