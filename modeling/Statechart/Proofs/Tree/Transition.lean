import Statechart.Machine.Dispatch
import Statechart.Proofs.Replay
import Statechart.Proofs.Tree.Faultless

/-!
# When an event is handled, and what it does then

In a tree without faults there is one reason only why an event does nothing: no
node at or above the active path has a transition for it (`Tree.Handles`,
`Tree.transition_eq_error`). Otherwise there is a transition
(`Tree.transition_eq_ok`), because the handler is found again at its node
(`Tree.lookup_of_handler?`) and its target exists and has a leaf.

The steps of a transition lead from the active path to the new leaf without ever
leaving the tree (`Tree.Leads`, `Tree.leads_of_transition`), and there is at least
one of them: the leaf is entered, even if it was active before. The steps of a
start lead there too, from nothing (`Tree.leads_of_start`).
-/

namespace Statechart

namespace Tree

variable {tree : Tree} {current : Path} {event : String}

/-- **An event is handled at a path**: a node at or above it has a transition for
the event. -/
def Handles (tree : Tree) (current : Path) (event : String) : Prop :=
  ∃ outer node target, current.startsWith outer = true ∧ tree.get? outer = some node
    ∧ node.transition? event = some target

/-- The handler that is found is one of the path or of a path around it. -/
theorem handler?_eq_some {source : Path} {target : Target}
    (h : tree.handler? current event = some (source, target)) :
    ∃ node, current.startsWith source = true ∧ tree.get? source = some node
      ∧ node.transition? event = some target := by
  obtain ⟨outer, hmem, hhandler⟩ := List.exists_of_findSome?_eq_some h
  obtain ⟨target', htarget, heq⟩ := Option.map_eq_some_iff.mp hhandler
  obtain ⟨node, hnode, htransition⟩ := Option.bind_eq_some_iff.mp htarget
  obtain ⟨rfl, rfl⟩ := Prod.mk.inj heq
  exact ⟨node, Path.mem_ancestors.mp hmem, hnode, htransition⟩

/-- **The handler that is found is found again at its node**: neither the node nor its
handler can be missing there. -/
theorem lookup_of_handler? {source : Path} {target : Target}
    (h : tree.handler? current event = some (source, target)) :
    ∃ node, tree.resolve source = .ok node ∧ node.transition? event = some target := by
  obtain ⟨node, -, hnode, htarget⟩ := handler?_eq_some h
  exact ⟨node, resolve_eq_ok_iff.mpr hnode, htarget⟩

/-- **A handler is found wherever there is one.** -/
theorem handler?_eq_none_iff :
    tree.handler? current event = none ↔ ¬ tree.Handles current event := by
  unfold handler?
  rw [List.findSome?_eq_none_iff]
  constructor
  · rintro h ⟨outer, node, target, houter, hnode, htarget⟩
    simpa [hnode, htarget] using h outer (Path.mem_ancestors.mpr houter)
  · intro h outer hmem
    rw [Option.map_eq_none_iff, Option.bind_eq_none_iff]
    intro node hnode
    refine Option.eq_none_iff_forall_ne_some.mpr fun target htarget => ?_
    exact h ⟨outer, node, target, Path.mem_ancestors.mp hmem, hnode, htarget⟩

/-- **An event that nothing handles is refused**, with the name of the active
path. -/
theorem transition_eq_error (hcurrent : tree.HasNode current) (h : ¬ tree.Handles current event) :
    tree.transition current event = .error (.noMatchingTransition event current.label) := by
  obtain ⟨node, hnode⟩ := hcurrent
  unfold transition
  rw [resolve_eq_ok_iff.mpr hnode, handler?_eq_none_iff.mpr h]
  rfl

/-! ## Where steps lead -/

/-- **Steps that lead to a leaf of the tree**: there is at least one, they can be
taken in order, each of them arrives at a node of the tree, and the last of them
at the leaf. -/
structure Leads (tree : Tree) (active : Option Path) (steps : List Step) (leaf : Path) : Prop where
  /-- There is a step to take. -/
  ne_nil : steps ≠ []
  /-- The steps fit together. -/
  replay : Replay active steps (some leaf)
  /-- They stay in the tree. -/
  hasNode : ∀ step ∈ steps, tree.HasNode step.arrival
  /-- They end at a leaf. -/
  hasLeaf : tree.HasLeaf leaf

/-- The steps of a transition lead from the active path to its leaf, whatever
node around both of them stays active. -/
theorem leads_steps {transition : Transition} {domain : Path} (hcurrent : tree.HasNode current)
    (hleaf : tree.HasLeaf transition.leaf) (houter : current.startsWith domain = true)
    (hdomain : transition.leaf.startsWith domain = true)
    (hlt : domain.length < transition.leaf.length)
    (hexits : transition.exits
      = current.ancestors.takeWhile fun path => domain.length < path.length)
    (hentries : transition.entries = transition.leaf.lineage.drop domain.length) :
    tree.Leads (some current) transition.steps transition.leaf := by
  refine ⟨?_, ?_, ?_, hleaf⟩
  · -- the leaf itself is entered, as it lies below the domain
    intro hnil
    have hlength := congrArg List.length (List.append_eq_nil_iff.mp hnil).2
    rw [hentries, List.length_map, List.length_drop, Path.length_lineage,
      List.length_nil] at hlength
    omega
  · unfold Transition.steps
    rw [hexits, hentries]
    exact (replay_exits houter).append (replay_entries hdomain)
  · intro step hmem
    obtain hexit | hentry := List.mem_append.mp hmem
    · -- what is exited lies around the active path, and so does its parent
      obtain ⟨path, hpath, rfl⟩ := List.mem_map.mp hexit
      rw [hexits] at hpath
      have hbelow := Path.mem_ancestors.mp (List.takeWhile_subset _ hpath)
      exact hcurrent.of_startsWith
        (Path.startsWith_trans hbelow (Path.startsWith_parentOrRoot path))
    · -- what is entered lies around the leaf
      obtain ⟨path, hpath, rfl⟩ := List.mem_map.mp hentry
      rw [hentries] at hpath
      exact hleaf.hasNode.of_startsWith
        (Path.startsWith_of_mem_lineage (List.mem_of_mem_drop hpath))

/-- The innermost node that both the active path and the new leaf lie below, if
the target has to be entered. -/
def domainOf (current target leaf : Path) : Path :=
  (current.commonPrefix leaf).truncated
    (min (current.commonPrefix leaf).length (target.length - 1))

theorem startsWith_domainOf_left (current target leaf : Path) :
    current.startsWith (domainOf current target leaf) = true :=
  Path.startsWith_trans (Path.startsWith_commonPrefix_left current leaf)
    (Path.startsWith_truncated _ _)

theorem startsWith_domainOf_right (current target leaf : Path) :
    leaf.startsWith (domainOf current target leaf) = true :=
  Path.startsWith_trans (Path.startsWith_commonPrefix_right current leaf)
    (Path.startsWith_truncated _ _)

/-- The domain is shorter than the target, which is entered in any case. -/
theorem length_domainOf_lt {current target leaf : Path} (h : target.isRoot = false) :
    (domainOf current target leaf).length < target.length := by
  have hpos : 0 < target.length := by
    rw [Path.isRoot, List.isEmpty_eq_false_iff] at h
    exact List.length_pos_iff.mpr h
  rw [domainOf, Path.length_truncated]
  omega

/-- The transition of a handler whose target has a leaf. -/
theorem transition_eq_of_handler? {start : Node} {source leaf : Path} {target : Target}
    (hcurrent : tree.get? current = some start)
    (hhandler : tree.handler? current event = some (source, target))
    (hroot : (target.resolveFrom source).isRoot = false)
    (hleaf : tree.leafOf (target.resolveFrom source) = .ok leaf) :
    tree.transition current event = .ok {
      event, source, target := target.resolveFrom source, leaf
      domain := domainOf current (target.resolveFrom source) leaf
      exits := current.ancestors.takeWhile fun path =>
        (domainOf current (target.resolveFrom source) leaf).length < path.length
      entries :=
        leaf.lineage.drop (domainOf current (target.resolveFrom source) leaf).length } := by
  obtain ⟨node, hresolve, htarget⟩ := lookup_of_handler? hhandler
  unfold transition
  rw [resolve_eq_ok_iff.mpr hcurrent, hhandler]
  simp only [bind, Except.bind, hresolve, htarget, hroot, hleaf, Bool.false_eq_true, if_false]
  rfl

/-- **An event that is handled has a transition**: its target exists, so it has a
leaf, and the steps lead there. -/
theorem transition_eq_ok (hcurrent : tree.HasNode current) (h : tree.Handles current event) :
    ∃ transition, tree.transition current event = .ok transition
      ∧ tree.Leads (some current) transition.steps transition.leaf := by
  obtain ⟨start, hstart⟩ := hcurrent
  cases hhandler : tree.handler? current event with
  | none => exact absurd h (handler?_eq_none_iff.mp hhandler)
  | some found =>
    obtain ⟨source, target⟩ := found
    obtain ⟨node, -, hnode, htarget⟩ := handler?_eq_some hhandler
    obtain ⟨hroot, haim⟩ := target_hasNode hnode htarget
    obtain ⟨leaf, hleafOf, hbelow, hleaf⟩ := leafOf_eq_ok haim
    refine ⟨_, transition_eq_of_handler? hstart hhandler hroot hleafOf, ?_⟩
    exact leads_steps ⟨start, hstart⟩ hleaf (startsWith_domainOf_left _ _ _)
      (startsWith_domainOf_right _ _ _)
      (Nat.lt_of_lt_of_le (length_domainOf_lt hroot) (Path.length_le_of_startsWith hbelow)) rfl rfl

theorem hasNode_of_transition {transition : Transition}
    (h : tree.transition current event = .ok transition) : tree.HasNode current := by
  unfold Tree.transition at h
  cases hresolve : tree.resolve current with
  | error error =>
    rw [hresolve] at h
    exact nomatch h
  | ok node => exact ⟨node, resolve_eq_ok_iff.mp hresolve⟩

/-- **The steps of a transition lead from the active path to the new leaf.** -/
theorem leads_of_transition {transition : Transition}
    (h : tree.transition current event = .ok transition) :
    tree.Leads (some current) transition.steps transition.leaf := by
  have hcurrent := hasNode_of_transition h
  by_cases hhandles : tree.Handles current event
  · obtain ⟨found, hok, hleads⟩ := transition_eq_ok hcurrent hhandles
    rw [h] at hok
    exact Except.ok.inj hok ▸ hleads
  · rw [transition_eq_error hcurrent hhandles] at h
    exact nomatch h

/-- **The steps of a start lead from nothing to the default leaf.** -/
theorem leads_of_start {leaf : Path} (h : tree.leafOf .root = .ok leaf) :
    tree.Leads none leaf.startSteps leaf := by
  obtain ⟨found, hok, -, hleaf⟩ := leafOf_eq_ok (hasNode_root tree)
  obtain rfl := Except.ok.inj (hok.symm.trans h)
  refine ⟨nofun, .cons .begin (replay_entries (Path.startsWith_root found)), ?_, hleaf⟩
  refine List.forall_mem_cons.mpr ⟨hasNode_root tree, fun step hmem => ?_⟩
  obtain ⟨path, hpath, rfl⟩ := List.mem_map.mp hmem
  exact hleaf.hasNode.of_startsWith (Path.startsWith_of_mem_lineage hpath)

end Tree

end Statechart
