import Statechart.Node.Builder
import Statechart.Proofs.Tree.Check

/-!
# Nodes that have been built

A node is checked twice: when it is built, as far as it can be checked by itself, and as
part of a root, when that is made a tree. What the first check has found to be right the
second one finds right as well, all the way down a node that was put together from nodes
that had been built themselves (`Node.Built`). A transition is all that can be wrong then:
its target is looked for in the whole root, which does not exist before
(`Tree.ofNode_built`).

The checks agree because a builder puts every child under the child's own id
(`Builder.Keeps`), and that id was checked when the child was built.
-/

namespace Statechart

namespace Node

/-! ## Building from what has been built -/

/-- The children that a call gives to a node under construction. -/
def Builder.Call.given : Builder.Call → List Node
  | .state child => [child]
  | .states children => children
  | _ => []

/-- **A node that was built from nodes that were built**, down to the leaves. -/
inductive Built : Node → Prop where
  | build {id : String} {calls : List Builder.Call} {node : Node}
    (given : ∀ call ∈ calls, ∀ child ∈ call.given, Built child)
    (ok : Node.build id calls = .ok node) : Built node

/-- **What a node under construction keeps**: its children were given to it, and each of
them is under its own id. -/
def Builder.Keeps (builder : Builder) (given : Node → Prop) : Prop :=
  ∀ key child, builder.node.child? key = some child → child.id = key ∧ given child

namespace Builder.Keeps

variable {builder : Builder} {given : Node → Prop}

theorem new (id : String) : (Builder.new id).Keeps given := nofun

theorem state {child : Node} (h : builder.Keeps given) (hgiven : given child) :
    (builder.state child).Keeps given := by
  intro key found hfound
  have hinsert : (builder.node.children.insert child.id child).get? key = some found := hfound
  rw [KeyMap.get?_insert] at hinsert
  split at hinsert
  · rename_i heq
    obtain rfl := Option.some.inj hinsert
    exact ⟨heq.symm, hgiven⟩
  · exact h key found hinsert

theorem states {children : List Node} (h : builder.Keeps given)
    (hgiven : ∀ child ∈ children, given child) :
    (children.foldl Builder.state builder).Keeps given := by
  induction children generalizing builder with
  | nil => exact h
  | cons child children ih =>
    obtain ⟨hchild, hchildren⟩ := List.forall_mem_cons.mp hgiven
    exact ih (h.state hchild) hchildren

/-- **A call keeps what it finds.** -/
theorem perform {call : Builder.Call} (h : builder.Keeps given)
    (hgiven : ∀ child ∈ call.given, given child) : (builder.perform call).Keeps given := by
  cases call with
  | state child => exact h.state (hgiven child (List.mem_singleton_self child))
  | states children => exact h.states hgiven
  | initial _ => exact h
  | on _ _ => exact h
  | entry _ => exact h
  | exit _ => exact h

theorem performAll {calls : List Builder.Call} (h : builder.Keeps given)
    (hgiven : ∀ call ∈ calls, ∀ child ∈ call.given, given child) :
    (calls.foldl Builder.perform builder).Keeps given := by
  induction calls generalizing builder with
  | nil => exact h
  | cons call calls ih =>
    obtain ⟨hcall, hcalls⟩ := List.forall_mem_cons.mp hgiven
    exact ih (h.perform hcall) hcalls

end Builder.Keeps

/-- A node that was built had no faults while it was under construction. -/
theorem Builder.build_eq_ok {builder : Builder} {node : Node} (ok : builder.build = .ok node) :
    builder.node = node ∧ isStateId node.id = true ∧ Builder.initialFaults node = [] := by
  obtain ⟨hfaults, rfl⟩ := MachineError.unlessFaulty_eq_ok_iff.mp ok
  unfold Builder.faults at hfaults
  obtain ⟨hown, hinitial⟩ := List.append_eq_nil_iff.mp hfaults
  refine ⟨rfl, ?_, hinitial⟩
  have hid := (List.append_eq_nil_iff.mp hown).1
  split at hid
  · assumption
  · exact nomatch hid

namespace Built

variable {node : Node}

/-- Its id can be the id of a state. -/
theorem isStateId (h : node.Built) : isStateId node.id = true := by
  cases h with
  | build _ ok => exact (Builder.build_eq_ok ok).2.1

/-- Its children have been built, and each of them is under its own id. -/
theorem child (h : node.Built) {key : String} {child : Node}
    (hchild : node.child? key = some child) :
    child.id = key ∧ child.Built := by
  cases h with
  | build given ok =>
    obtain ⟨rfl, -⟩ := Builder.build_eq_ok ok
    exact (Builder.Keeps.new _).performAll given key child hchild

/-- **All nodes of a root that was built have been built.** -/
theorem get? {root : Node} (h : root.Built) {path : Path} (hnode : root.get? path = some node) :
    node.Built := by
  obtain ⟨keys⟩ := path
  induction keys generalizing root with
  | nil =>
    obtain rfl := Option.some.inj ((descend?_nil root).symm.trans hnode)
    exact h
  | cons key keys ih =>
    obtain ⟨child, hchild, hbelow⟩ := Option.bind_eq_some_iff.mp hnode
    exact ih (h.child hchild).2 hbelow

/-! ## What can be reported of it -/

/-- Nothing is reported of its children. -/
theorem childReport?_eq_none (h : node.Built) {key : String} {child : Node}
    (hchild : node.child? key = some child) : childReport? key child = none := by
  obtain ⟨rfl, hbuilt⟩ := h.child hchild
  have hid := hbuilt.isStateId
  unfold Statechart.isStateId hasDot at hid
  simp only [Bool.and_eq_true, Bool.not_eq_true', List.contains_eq_mem, decide_eq_false_iff_not]
    at hid
  refine childReport?_eq_none_iff.mpr ⟨?_, hid.2, .inr rfl⟩
  intro hempty
  rw [hempty] at hid
  exact nomatch hid.1

/-- Nothing is reported of its choice of an initial child. -/
theorem initialReport?_eq_none (h : node.Built) (path : Path) :
    initialReport? path node = none := by
  refine initialReport?_eq_none_iff.mpr fun hleaf => ?_
  cases h with
  | build _ ok =>
    obtain ⟨-, -, hinitial⟩ := Builder.build_eq_ok ok
    unfold Builder.initialFaults at hinitial
    rw [hleaf, if_neg Bool.false_ne_true] at hinitial
    cases hkey : node.initial with
    | none => simp [hkey] at hinitial
    | some key =>
      cases hchild : node.child? key with
      | none => simp [hkey, hchild] at hinitial
      | some child => exact ⟨key, child, rfl, hchild⟩

/-- **Of a node that was built only transitions are reported.** -/
theorem reports_eq (h : node.Built) (root : Node) (path : Path) :
    reports root path node = node.transitions.values.filterMap (targetReport? root path) := by
  unfold reports
  have hchildren : node.children.toList.filterMap (fun entry => childReport? entry.1 entry.2)
      = [] := by
    refine List.filterMap_eq_nil_iff.mpr fun entry hmem => ?_
    exact h.childReport?_eq_none (KeyMap.mem_toList_iff.mp hmem)
  rw [hchildren, h.initialReport?_eq_none path]
  rfl

end Built

/-! ## Transitions that lead nowhere -/

/-- **A transition as a node declares it.** -/
structure Arrow where
  /-- The path of the node. -/
  path : Path
  /-- The event. -/
  event : String
  /-- Where the event leads. -/
  target : Target

namespace Arrow

/-- A root has a node that declares the transition. -/
def IsOf (arrow : Arrow) (root : Node) : Prop :=
  ∃ node, root.get? arrow.path = some node ∧ node.transition? arrow.event = some arrow.target

/-- The path at which the transition ends. -/
def aim (arrow : Arrow) : Path := arrow.target.resolveFrom arrow.path

/-- **The transition leads nowhere**: to the root itself, or to no node. -/
def Misses (arrow : Arrow) (root : Node) : Prop :=
  arrow.aim = .root ∨ root.get? arrow.aim = none

instance (arrow : Arrow) (root : Node) : Decidable (arrow.Misses root) :=
  inferInstanceAs (Decidable (_ ∨ _))

/-- What is reported of a transition that leads nowhere. -/
def complaint (arrow : Arrow) : MachineError :=
  .unknownState (if arrow.aim = .root then arrow.target.text else arrow.aim.dotted)

/-- It is reported of those only. -/
theorem targetReport?_eq (arrow : Arrow) (root : Node) :
    targetReport? root arrow.path arrow.target
      = if arrow.Misses root then some arrow.complaint else none := by
  unfold targetReport? complaint
  show (if arrow.aim = .root then _ else if root.get? arrow.aim = none then _ else none) = _
  by_cases hroot : arrow.aim = .root
  · rw [if_pos hroot, if_pos hroot, if_pos (show arrow.Misses root from .inl hroot)]
  · rw [if_neg hroot, if_neg hroot]
    by_cases hnone : root.get? arrow.aim = none
    · rw [if_pos hnone, if_pos (show arrow.Misses root from .inr hnone)]
      rfl
    · rw [if_neg hnone, if_neg (show ¬ arrow.Misses root from not_or.mpr ⟨hroot, hnone⟩)]

end Arrow

/-- The transitions of the node at a path. -/
def arrowsAt (path : Path) (node : Node) : List Arrow :=
  node.transitions.toList.map fun (event, target) => ⟨path, event, target⟩

/-- All transitions of a root. -/
def arrows (root : Node) : List Arrow :=
  root.visits.flatMap fun (path, node) => node.arrowsAt path

/-- The transitions of a root that lead nowhere. -/
def misses (root : Node) : List Arrow := root.arrows.filter fun arrow => arrow.Misses root

variable {root : Node}

theorem mem_arrows {arrow : Arrow} : arrow ∈ root.arrows ↔ arrow.IsOf root := by
  unfold arrows arrowsAt Arrow.IsOf
  constructor
  · intro hmem
    obtain ⟨⟨path, node⟩, hvisit, hmem⟩ := List.mem_flatMap.mp hmem
    obtain ⟨⟨event, target⟩, hentry, rfl⟩ := List.mem_map.mp hmem
    exact ⟨node, mem_visits.mp hvisit, KeyMap.mem_toList_iff.mp hentry⟩
  · rintro ⟨node, hnode, htarget⟩
    refine List.mem_flatMap.mpr ⟨(arrow.path, node), mem_visits.mpr hnode, ?_⟩
    exact List.mem_map.mpr ⟨(arrow.event, arrow.target), KeyMap.mem_toList_iff.mpr htarget, rfl⟩

/-- **No transition is listed twice**: a node declares one for an event. -/
theorem nodup_arrows (root : Node) :
    (root.arrows.map fun arrow => (arrow.path, arrow.event)).Nodup := by
  unfold arrows arrowsAt
  rw [List.map_flatMap]
  refine List.nodup_flatMap.mpr ⟨fun (path, node) _ => ?_, ?_⟩
  · rw [List.map_map]
    have hkeys : node.transitions.keys.Nodup :=
      node.transitions.pairwise_keys.imp fun hlt => String.ne_of_lt hlt
    have hpairs : (node.transitions.keys.map fun event => (path, event)).Nodup :=
      hkeys.map fun _ _ heq => (Prod.mk.inj heq).2
    rw [KeyMap.keys, List.map_map] at hpairs
    exact hpairs
  · -- different nodes are at different paths
    refine (List.pairwise_map.mp root.isVisit_visits.nodup_paths).imp ?_
    rintro ⟨path, node⟩ ⟨path', node'⟩ hne pair hmem hmem'
    obtain ⟨_, harrow, rfl⟩ := List.mem_map.mp hmem
    obtain ⟨_, -, rfl⟩ := List.mem_map.mp harrow
    obtain ⟨_, harrow', heq⟩ := List.mem_map.mp hmem'
    obtain ⟨_, -, rfl⟩ := List.mem_map.mp harrow'
    exact hne (Prod.mk.inj heq).1.symm

/-- **The faults of a root that was built** are its transitions that lead nowhere. -/
theorem Built.faults_eq (h : root.Built) : root.faults = root.misses.map Arrow.complaint := by
  have hown : ∀ visit ∈ root.visits, reports root visit.1 visit.2
      = (visit.2.arrowsAt visit.1).filterMap fun arrow =>
        if arrow.Misses root then some arrow.complaint else none := by
    rintro ⟨path, node⟩ hvisit
    rw [(h.get? (mem_visits.mp hvisit)).reports_eq]
    unfold arrowsAt KeyMap.values
    rw [List.filterMap_map, List.filterMap_map]
    refine List.filterMap_congr fun (event, target) _ => ?_
    exact Arrow.targetReport?_eq ⟨path, event, target⟩ root
  rw [faults_eq_reports root.isVisit_visits]
  unfold misses arrows
  rw [← List.filterMap_eq_map, List.filterMap_filter, List.filterMap_flatMap]
  simp only [decide_eq_true_eq]
  exact List.flatMap_congr hown

end Node

namespace Tree

/-- **What was built right is a tree, unless a transition leads nowhere.** Take a root that
was built from nodes that were built, however deep and wide. It is a tree exactly if each of
its transitions leads to a node other than the root. If it is no tree, each transition that
leads nowhere is reported once, as leading to an unknown state, and nothing else is: no id
and no choice of an initial child. -/
theorem ofNode_built {root : Node} (built : root.Built) :
    ((∃ tree, Tree.ofNode root = .ok tree ∧ tree.root = root)
        ↔ ∀ arrow : Node.Arrow, arrow.IsOf root →
          arrow.aim ≠ .root ∧ ∃ node, root.get? arrow.aim = some node)
      ∧ ∀ error, Tree.ofNode root = .error error → ∃ bad : List Node.Arrow,
        (∀ arrow, arrow ∈ bad ↔ arrow.IsOf root
            ∧ (arrow.aim = .root ∨ root.get? arrow.aim = none))
          ∧ (bad.map fun arrow => (arrow.path, arrow.event)).Nodup
          ∧ error.errors = bad.map Node.Arrow.complaint := by
  have hfaults := built.faults_eq
  have hmisses : ∀ arrow, arrow ∈ root.misses ↔ arrow.IsOf root ∧ arrow.Misses root := by
    intro arrow
    unfold Node.misses
    rw [List.mem_filter, Node.mem_arrows, decide_eq_true_eq]
  unfold Tree.ofNode
  refine ⟨?_, fun error herror => ⟨root.misses, hmisses, ?_, ?_⟩⟩
  · have hgood : root.faults = [] ↔ ∀ arrow : Node.Arrow, arrow.IsOf root →
        arrow.aim ≠ .root ∧ ∃ node, root.get? arrow.aim = some node := by
      rw [hfaults, List.map_eq_nil_iff, List.eq_nil_iff_forall_not_mem]
      refine forall_congr' fun arrow => ?_
      rw [hmisses, not_and]
      refine imp_congr_right fun _ => ?_
      unfold Node.Arrow.Misses
      rw [not_or, ← Option.ne_none_iff_exists']
    rw [← hgood]
    by_cases hnil : root.faults = []
    · rw [dif_pos hnil]
      exact iff_of_true ⟨_, rfl, rfl⟩ hnil
    · rw [dif_neg hnil]
      exact iff_of_false nofun hnil
  · exact (root.nodup_arrows).sublist (List.Sublist.map _ List.filter_sublist)
  · split at herror
    · cases herror
    · obtain rfl := Except.error.inj herror
      rw [hfaults]
      refine MachineError.errors_ofFaults fun fault hmem => ?_
      obtain ⟨arrow, -, rfl⟩ := List.mem_map.mp hmem
      rfl

/-- A lamp that may break, although no state says that it is broken. -/
def fragile : Node :=
  { Node.leaf "lamp" with
    initial := some "off"
    children := .ofList [
      ("off", { Node.leaf "off" with transitions := .ofList [("flip", .sibling "on")] }),
      ("on",
        { Node.leaf "on" with
          transitions := .ofList [("flip", .sibling "off"), ("drop", .sibling "broken")] })] }

/-- The lamp can be built, state by state. -/
theorem built_fragile : fragile.Built := by
  have hoff : Node.build "off" [.on "flip" (.sibling "on")]
      = .ok { Node.leaf "off" with transitions := .ofList [("flip", .sibling "on")] } := rfl
  have hon : Node.build "on" [.on "drop" (.sibling "broken"), .on "flip" (.sibling "off")]
      = .ok { Node.leaf "on" with
          transitions := .ofList [("flip", .sibling "off"), ("drop", .sibling "broken")] } := rfl
  have hlamp : Node.build "lamp" [.states [
        { Node.leaf "on" with
          transitions := .ofList [("flip", .sibling "off"), ("drop", .sibling "broken")] },
        { Node.leaf "off" with transitions := .ofList [("flip", .sibling "on")] }],
      .initial "off"] = .ok fragile := rfl
  refine .build (fun call hcall child hchild => ?_) hlamp
  simp only [List.mem_cons, List.not_mem_nil, or_false] at hcall
  obtain rfl | rfl := hcall
  · simp only [Node.Builder.Call.given, List.mem_cons, List.not_mem_nil, or_false] at hchild
    obtain rfl | rfl := hchild
    · exact .build (by simp [Node.Builder.Call.given]) hon
    · exact .build (by simp [Node.Builder.Call.given]) hoff
  · exact nomatch hchild

/-- The one thing that is reported of the lamp is that it cannot be broken. -/
theorem ofNode_built_fragile : ∃ bad : List Node.Arrow,
    (∀ arrow, arrow ∈ bad ↔ arrow.IsOf fragile
        ∧ (arrow.aim = .root ∨ fragile.get? arrow.aim = none))
      ∧ bad.map Node.Arrow.complaint = [.unknownState "broken"] := by
  have hbad : Tree.ofNode fragile = .error (.unknownState "broken") := rfl
  obtain ⟨bad, hmem, -, herrors⟩ := (ofNode_built built_fragile).2 _ hbad
  exact ⟨bad, hmem, herrors.symm⟩

end Tree

end Statechart
