import Statechart.Proofs.Tree.Descent
import Statechart.Proofs.Tree.Domain

/-!
# The node that handles an event

Several nodes around an active path may have a transition for the same event. The
innermost of them handles it (`Tree.length_le_of_handler?`): the search goes outwards
along paths that only get shorter, and ends at the first that will do.

From there the rest follows. What the handler names is looked for among the siblings of
the handler, not of the active path (`Target.NamesFrom`), it exists because the tree has
been checked, and initial children lead on to a leaf. So a node that handles the event is
all it takes for a transition (`Tree.transition_isMostSpecific`).

The events that a path handles are listed by a second walk over the same nodes
(`Tree.nextEvents`), and are the same events (`Tree.mem_nextEvents`).
-/

namespace Statechart

/-- **What a target names**, seen from the state that handles the event. -/
inductive Target.NamesFrom (source : Path) : Target → Path → Prop where
  /-- The root has no siblings: an id names one of its children. -/
  | child {id : String} (atRoot : source = .root) :
    NamesFrom source (.sibling id) (Path.root.child id)
  /-- Otherwise an id names a child of the parent. -/
  | sibling {outer : Path} {last id : String} (below : source = outer.child last) :
    NamesFrom source (.sibling id) (outer.child id)
  /-- A path names what lies at it. -/
  | path {path : Path} : NamesFrom source (.absolute path) path

/-- Where a target leads is what it names. -/
theorem Target.namesFrom_resolveFrom (source : Path) (target : Target) :
    target.NamesFrom source (target.resolveFrom source) := by
  cases target with
  | absolute path => exact .path
  | sibling id =>
    cases source using Path.induction with
    | root => exact .child rfl
    | child outer last =>
      show NamesFrom _ _ ((outer.child last).parentOrRoot.child id)
      rw [Path.parentOrRoot_child]
      exact .sibling rfl

/-- **A transition is that of the most specific handler** of an event, seen from the active
path. -/
structure Transition.IsMostSpecific (transition : Transition) (tree : Tree) (current : Path)
    (event : String) : Prop where
  /-- It is about the event. -/
  event_eq : transition.event = event
  /-- Its source is the active path or lies around it. -/
  source_around : current.startsWith transition.source = true
  /-- The source has a transition for the event, and what that names is the target. -/
  source_handles : ∃ node target, tree.get? transition.source = some node
    ∧ node.transition? event = some target
    ∧ target.NamesFrom transition.source transition.target
  /-- Whatever else around the active path has a transition for the event is no longer. -/
  source_longest : ∀ outer node target, current.startsWith outer = true →
    tree.get? outer = some node → node.transition? event = some target →
      outer.length ≤ transition.source.length
  /-- The target is not the root. -/
  target_ne_root : transition.target ≠ .root
  /-- It is in the tree. -/
  target_hasNode : tree.HasNode transition.target
  /-- The new leaf is the default leaf of the target. -/
  leafOf_target : tree.leafOf transition.target = .ok transition.leaf
  /-- Initial children lead there. -/
  descends : tree.DescendsTo transition.target transition.leaf

namespace Tree

variable {tree : Tree} {current source outer : Path} {event : String} {target : Target}
  {node : Node}

/-! ## The search for a handler -/

/-- **The handler that is found is the innermost one.** -/
theorem length_le_of_handler? (h : tree.handler? current event = some (source, target))
    (houter : current.startsWith outer = true) (hnode : tree.get? outer = some node)
    {other : Target} (hother : node.transition? event = some other) :
    outer.length ≤ source.length := by
  obtain ⟨inner, found, rest, hsplit, hfound, hnone⟩ := List.findSome?_eq_some_iff.mp h
  obtain ⟨_, -, heq⟩ := Option.map_eq_some_iff.mp hfound
  obtain rfl : found = source := congrArg Prod.fst heq
  have hmem := Path.mem_ancestors.mpr houter
  rw [hsplit] at hmem
  obtain hinner | hmem := List.mem_append.mp hmem
  · -- what is asked before the handler that is found has no transition
    have hasked := hnone outer hinner
    rw [hnode, Option.bind_some, hother] at hasked
    exact nomatch hasked
  · obtain rfl | hrest := List.mem_cons.mp hmem
    · exact Nat.le_refl _
    · have hshorten := current.pairwise_ancestors
      rw [hsplit] at hshorten
      exact Nat.le_of_lt (List.rel_of_pairwise_cons (List.pairwise_append.mp hshorten).2.1 hrest)

theorem isSome_handler?_iff :
    (tree.handler? current event).isSome = true ↔ tree.Handles current event := by
  rw [← not_iff_not, ← handler?_eq_none_iff, Option.not_isSome_iff_eq_none]

/-! ## The events that are handled -/

/-- **The events that are listed for a path** are those that it handles. -/
theorem mem_nextEvents : event ∈ tree.nextEvents current ↔ tree.Handles current event := by
  unfold nextEvents
  rw [KeyMap.mem_keys_ofList]
  constructor
  · rintro ⟨_, hmem⟩
    obtain ⟨key, hevent, heq⟩ := List.mem_map.mp hmem
    obtain rfl : key = event := congrArg Prod.fst heq
    obtain ⟨node, hnode, hkey⟩ := List.mem_flatMap.mp hevent
    obtain ⟨outer, houter, hget⟩ := List.mem_filterMap.mp hnode
    obtain ⟨target, htarget⟩ := Option.isSome_iff_exists.mp (KeyMap.mem_keys_iff.mp hkey)
    exact ⟨outer, node, target, Path.mem_ancestors.mp houter, hget, htarget⟩
  · rintro ⟨outer, node, target, houter, hnode, htarget⟩
    have hkey : event ∈ node.transitions.keys :=
      KeyMap.mem_keys_iff.mpr (Option.isSome_iff_exists.mpr ⟨target, htarget⟩)
    refine ⟨(), List.mem_map.mpr ⟨event, List.mem_flatMap.mpr ⟨node, ?_, hkey⟩, rfl⟩⟩
    exact List.mem_filterMap.mpr ⟨outer, Path.mem_ancestors.mpr houter, hnode⟩

/-- They are listed in ascending order, each of them once. -/
theorem pairwise_nextEvents (tree : Tree) (current : Path) :
    (tree.nextEvents current).Pairwise (· < ·) :=
  KeyMap.pairwise_keys _

/-! ## The transition of a handler -/

theorem isMostSpecific_of_transition {transition : Transition}
    (h : tree.transition current event = .ok transition) :
    transition.IsMostSpecific tree current event := by
  obtain ⟨source, handler, leaf, hhandler, hroot, hleafOf, -, rfl⟩ := exists_handler_of_transition h
  obtain ⟨node, haround, hnode, htarget⟩ := handler?_eq_some hhandler
  exact {
    event_eq := rfl
    source_around := haround
    source_handles := ⟨node, handler, hnode, htarget, handler.namesFrom_resolveFrom source⟩
    source_longest := fun _ _ _ houter hget => length_le_of_handler? hhandler houter hget
    target_ne_root := fun heq => Bool.false_ne_true (hroot.symm.trans (Path.isRoot_iff.mpr heq))
    target_hasNode := (target_hasNode hnode htarget).2
    leafOf_target := hleafOf
    descends := descendsTo_of_leafOf hleafOf }

/-- **No event does anything at a path that is not in the tree**: the first node on the way
that is missing is reported. -/
theorem transition_eq_error_of_not_hasNode (h : ¬ tree.HasNode current) (event : String) :
    ∃ missing, tree.IsFirstMissing current missing
      ∧ tree.transition current event = .error (.unknownState missing.dotted) := by
  obtain ⟨missing, hmissing, hresolve⟩ := resolve_eq_error h
  refine ⟨missing, hmissing, ?_⟩
  unfold transition
  rw [hresolve]
  rfl

/-- **An event does something exactly where it is handled**, and then what the most specific
handler says. Otherwise there is no transition for it, and at a path that is not in the tree
there never is, for want of the path. -/
theorem transition_isMostSpecific (tree : Tree) (current : Path) (event : String) :
    (tree.HasNode current →
      ((∃ transition, tree.transition current event = .ok transition)
          ↔ tree.Handles current event)
        ∧ (∀ transition, tree.transition current event = .ok transition →
          transition.IsMostSpecific tree current event)
        ∧ (¬ tree.Handles current event → tree.transition current event
          = .error (.noMatchingTransition event current.label)))
      ∧ (¬ tree.HasNode current → ∃ missing, tree.IsFirstMissing current missing
        ∧ tree.transition current event = .error (.unknownState missing.dotted)) := by
  refine ⟨fun hcurrent => ⟨⟨?_, fun hhandles => ?_⟩, ?_, ?_⟩, fun hnone => ?_⟩
  · rintro ⟨transition, ok⟩
    have hspecific := isMostSpecific_of_transition ok
    obtain ⟨node, target, hnode, htarget, -⟩ := hspecific.source_handles
    exact ⟨transition.source, node, target, hspecific.source_around, hnode, htarget⟩
  · obtain ⟨transition, ok, -⟩ := transition_eq_ok hcurrent hhandles
    exact ⟨transition, ok⟩
  · exact fun _ => isMostSpecific_of_transition
  · exact transition_eq_error hcurrent
  · exact transition_eq_error_of_not_hasNode hnone event

/-! ## A telephone

A tree to look at: a telephone with a single button. Pressing it during a conversation puts
the caller on hold; in every other state it ends the call. -/

/-- The states of the telephone. -/
def telephone : Tree where
  root :=
    { Node.leaf "telephone" with
      initial := some "idle"
      children := .ofList [
        ("busy",
          { Node.leaf "busy" with
            initial := some "talking"
            children := .ofList [
              ("holding", .leaf ""),
              ("talking",
                { Node.leaf "" with transitions := .ofList [("press", .sibling "holding")] })] }),
        ("idle", { Node.leaf "idle" with transitions := .ofList [("ring", .sibling "busy")] })]
      transitions := .ofList [("press", .sibling "idle")] }
  faultless := by rfl

/-- During a conversation the button is handled there, and on hold by the telephone, whose
siblings are its children. Nobody rings a telephone that is busy, and what the telephone
does on a table is unknown. -/
theorem transition_isMostSpecific_telephone : ∃ hold hangUp missing,
    telephone.transition ⟨["busy", "talking"]⟩ "press" = .ok hold
      ∧ hold.source = ⟨["busy", "talking"]⟩ ∧ hold.leaf = ⟨["busy", "holding"]⟩
      ∧ hold.IsMostSpecific telephone ⟨["busy", "talking"]⟩ "press"
      ∧ telephone.transition ⟨["busy", "holding"]⟩ "press" = .ok hangUp
      ∧ hangUp.source = .root ∧ hangUp.leaf = ⟨["idle"]⟩
      ∧ hangUp.IsMostSpecific telephone ⟨["busy", "holding"]⟩ "press"
      ∧ telephone.transition ⟨["busy"]⟩ "ring" = .error (.noMatchingTransition "ring" "busy")
      ∧ telephone.IsFirstMissing ⟨["table", "left"]⟩ missing
      ∧ telephone.transition ⟨["table", "left"]⟩ "ring"
        = .error (.unknownState missing.dotted) := by
  have hhold : telephone.transition ⟨["busy", "talking"]⟩ "press" = .ok {
      event := "press", source := ⟨["busy", "talking"]⟩, target := ⟨["busy", "holding"]⟩
      leaf := ⟨["busy", "holding"]⟩, domain := ⟨["busy"]⟩
      exits := [⟨["busy", "talking"]⟩], entries := [⟨["busy", "holding"]⟩] } := rfl
  have hhangUp : telephone.transition ⟨["busy", "holding"]⟩ "press" = .ok {
      event := "press", source := .root, target := ⟨["idle"]⟩, leaf := ⟨["idle"]⟩
      domain := .root
      exits := [⟨["busy", "holding"]⟩, ⟨["busy"]⟩], entries := [⟨["idle"]⟩] } := rfl
  have htalking : telephone.HasNode ⟨["busy", "talking"]⟩ := ⟨_, rfl⟩
  have hholding : telephone.HasNode ⟨["busy", "holding"]⟩ := ⟨_, rfl⟩
  have hbusy : telephone.HasNode ⟨["busy"]⟩ := ⟨_, rfl⟩
  have htable : ¬ telephone.HasNode ⟨["table", "left"]⟩ := by
    rintro ⟨node, hnode⟩
    exact nomatch hnode
  have hring : ¬ telephone.Handles ⟨["busy"]⟩ "ring" := handler?_eq_none_iff.mp rfl
  obtain ⟨missing, hmissing, herror⟩ := (transition_isMostSpecific telephone _ "ring").2 htable
  exact ⟨_, _, missing, hhold, rfl, rfl,
    ((transition_isMostSpecific telephone _ _).1 htalking).2.1 _ hhold, hhangUp, rfl, rfl,
    ((transition_isMostSpecific telephone _ _).1 hholding).2.1 _ hhangUp,
    ((transition_isMostSpecific telephone _ _).1 hbusy).2.2 hring, hmissing, herror⟩

end Tree

end Statechart
