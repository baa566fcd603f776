import Statechart.Proofs.Tree.Visit

/-!
# Which roots are trees, and what is reported of the others

A root is well-formed (`Node.WellFormed`) if keys and ids of its nodes fit, nodes
with children choose one of them, and transitions lead to nodes below the root.
`Tree.ofNode` accepts exactly the well-formed roots, and what it says of the others
is put together node by node in the order of a visit (`Tree.ofNode_checks`): a node
contributes at most one report for each child, at most one for its choice of an
initial child, and at most one for each transition (`Node.reports`).

Being well-formed is a property of every node on its own, given the root
(`Node.WellFormedAt`), and a node has it exactly if nothing is reported of it
(`Node.reports_eq_nil_iff`).
-/

namespace Statechart

namespace Node

/-! ## Well-formed roots -/

/-- **The node at a path is well-formed** as a part of the root. -/
structure WellFormedAt (root : Node) (path : Path) (node : Node) : Prop where
  /-- The keys of its children are not empty and have no dot, and a child with an
  id has its key for an id. -/
  keys : ∀ key child, node.child? key = some child →
    key ≠ "" ∧ '.' ∉ key.toList ∧ (child.id = "" ∨ child.id = key)
  /-- If it has children, it names one of them as initial. -/
  initial : node.isLeaf = false →
    ∃ key child, node.initial = some key ∧ node.child? key = some child
  /-- Its transitions lead to nodes other than the root. -/
  targets : ∀ event target, node.transition? event = some target →
    target.resolveFrom path ≠ .root ∧ ∃ aim, root.get? (target.resolveFrom path) = some aim

/-- **All nodes of a root are well-formed.** -/
def WellFormed (root : Node) : Prop :=
  ∀ path node, root.get? path = some node → root.WellFormedAt path node

/-! ## Reports -/

/-- What is reported of a child: its key if it cannot be one, else its id if that
is another. -/
def childReport? (key : String) (child : Node) : Option MachineError :=
  if key = "" ∨ '.' ∈ key.toList then some (.invalidStateId key)
  else if child.id = "" ∨ child.id = key then none
  else some (.invalidStateId child.id)

/-- What is reported of the choice of an initial child: that it is missing, or
where there is no such child. -/
def initialReport? (path : Path) (node : Node) : Option MachineError :=
  if node.isLeaf = true then none
  else match node.initial with
    | none => some (.missingInitial path.label)
    | some key =>
      if node.child? key = none then some (.unknownState (path.child key).dotted) else none

/-- What is reported of a target: its text if that means the root, else the path
at which there is no node. -/
def targetReport? (root : Node) (path : Path) (target : Target) : Option MachineError :=
  if target.resolveFrom path = .root then some (.unknownState target.text)
  else if root.get? (target.resolveFrom path) = none then
    some (.unknownState (target.resolveFrom path).dotted)
  else none

/-- **What is reported of the node at a path**: of its children in the order of
their keys, of the choice of the initial one, and of its transitions in the order
of their events. -/
def reports (root : Node) (path : Path) (node : Node) : List MachineError :=
  node.children.toList.filterMap (fun entry => childReport? entry.1 entry.2)
    ++ (initialReport? path node).toList
    ++ node.transitions.values.filterMap (targetReport? root path)

variable {root node : Node} {path : Path}

theorem keyFaults_eq (key : String) (child : Node) :
    keyFaults key child = (childReport? key child).toList := by
  unfold keyFaults childReport? isStateId hasDot
  by_cases hkey : key = "" ∨ '.' ∈ key.toList
  · rw [if_pos hkey, if_pos (by simpa [String.isEmpty_iff] using hkey)]
    rfl
  · rw [if_neg hkey, if_neg (by simpa [String.isEmpty_iff] using hkey)]
    by_cases hid : child.id = "" ∨ child.id = key
    · rw [if_pos hid, if_neg (by simpa [String.isEmpty_iff, ← or_iff_not_imp_left] using hid)]
      rfl
    · rw [if_neg hid, if_pos (by simpa [String.isEmpty_iff] using hid)]
      rfl

theorem initialFaults_eq (path : Path) (node : Node) :
    node.initialFaults path = (initialReport? path node).toList := by
  unfold initialFaults initialReport?
  cases node.isLeaf with
  | true => rfl
  | false =>
    cases node.initial with
    | none => rfl
    | some key =>
      show (if (node.child? key).isNone = true then _ else _) = Option.toList (if _ then _ else _)
      simp only [Option.isNone_iff_eq_none]
      split <;> rfl

theorem targetFaults_eq (root : Node) (path : Path) (target : Target) :
    targetFaults root path target = (targetReport? root path target).toList := by
  unfold targetFaults targetReport?
  simp only [Path.isRoot_iff, Option.isNone_iff_eq_none]
  split
  · rfl
  · split <;> rfl

/-- The faults of a node are what is reported of it. -/
theorem ownFaults_eq_reports (root : Node) (path : Path) (node : Node) :
    ownFaults root path node = reports root path node := by
  unfold ownFaults reports
  rw [initialFaults_eq, List.filterMap_eq_flatMap_toList, List.filterMap_eq_flatMap_toList,
    funext (targetFaults_eq root path)]
  simp only [keyFaults_eq]

/-! ## Nothing is reported exactly of well-formed nodes -/

theorem childReport?_eq_none_iff {key : String} {child : Node} :
    childReport? key child = none
      ↔ key ≠ "" ∧ '.' ∉ key.toList ∧ (child.id = "" ∨ child.id = key) := by
  unfold childReport?
  by_cases hkey : key = "" ∨ '.' ∈ key.toList
  · rw [if_pos hkey]
    exact ⟨nofun, fun ⟨hne, hdot, _⟩ => absurd hkey (not_or_intro hne hdot)⟩
  · obtain ⟨hne, hdot⟩ := not_or.mp hkey
    rw [if_neg hkey]
    split
    · rename_i hid
      exact ⟨fun _ => ⟨hne, hdot, hid⟩, fun _ => rfl⟩
    · rename_i hid
      exact ⟨nofun, fun ⟨_, _, hid'⟩ => absurd hid' hid⟩

theorem initialReport?_eq_none_iff :
    initialReport? path node = none ↔ (node.isLeaf = false →
      ∃ key child, node.initial = some key ∧ node.child? key = some child) := by
  unfold initialReport?
  cases node.isLeaf with
  | true => exact ⟨fun _ => nofun, fun _ => rfl⟩
  | false =>
    cases node.initial with
    | none => exact ⟨nofun, fun h => nomatch h rfl⟩
    | some key => cases hchild : node.child? key <;> simp [hchild]

theorem targetReport?_eq_none_iff {target : Target} :
    targetReport? root path target = none
      ↔ target.resolveFrom path ≠ .root
        ∧ ∃ aim, root.get? (target.resolveFrom path) = some aim := by
  unfold targetReport?
  by_cases hroot : target.resolveFrom path = .root
  · rw [if_pos hroot]
    exact ⟨nofun, fun h => absurd hroot h.1⟩
  · rw [if_neg hroot, and_iff_right hroot, ← Option.ne_none_iff_exists']
    split
    · rename_i hnone
      exact ⟨nofun, fun h => absurd hnone h⟩
    · rename_i hsome
      exact ⟨fun _ => hsome, fun _ => rfl⟩

/-- **Nothing is reported of a node** exactly if it is well-formed. -/
theorem reports_eq_nil_iff : reports root path node = [] ↔ root.WellFormedAt path node := by
  unfold reports
  rw [List.append_eq_nil_iff, List.append_eq_nil_iff, List.filterMap_eq_nil_iff,
    List.filterMap_eq_nil_iff, Option.toList_eq_nil_iff, initialReport?_eq_none_iff]
  constructor
  · rintro ⟨⟨hkeys, hinitial⟩, htargets⟩
    refine ⟨fun key child hchild => ?_, hinitial, fun event target htarget => ?_⟩
    · exact childReport?_eq_none_iff.mp (hkeys (key, child) (KeyMap.mem_toList_iff.mpr hchild))
    · have hmem : target ∈ node.transitions.values :=
        List.mem_map.mpr ⟨(event, target), KeyMap.mem_toList_iff.mpr htarget, rfl⟩
      exact targetReport?_eq_none_iff.mp (htargets target hmem)
  · rintro ⟨hkeys, hinitial, htargets⟩
    refine ⟨⟨fun entry hmem => ?_, hinitial⟩, fun target hmem => ?_⟩
    · exact childReport?_eq_none_iff.mpr (hkeys _ _ (KeyMap.mem_toList_iff.mp hmem))
    · obtain ⟨⟨event, target'⟩, hentry, rfl⟩ := List.mem_map.mp hmem
      exact targetReport?_eq_none_iff.mpr (htargets event _ (KeyMap.mem_toList_iff.mp hentry))

theorem faults_eq_reports {visits : List (Path × Node)} (h : root.IsVisit visits) :
    root.faults = visits.flatMap fun visit => reports root visit.1 visit.2 := by
  rw [faults_eq_visits, h.unique root.isVisit_visits]
  simp only [ownFaults_eq_reports]

/-- **A root has no faults exactly if it is well-formed.** -/
theorem faults_eq_nil_iff : root.faults = [] ↔ root.WellFormed := by
  rw [faults_eq_reports root.isVisit_visits, List.flatMap_eq_nil_iff]
  constructor
  · intro h path node hnode
    exact reports_eq_nil_iff.mp (h (path, node) (mem_visits.mpr hnode))
  · rintro h ⟨path, node⟩ hmem
    exact reports_eq_nil_iff.mpr (h path node (mem_visits.mp hmem))

/-! ## One error for all reports -/

/-- A report is a single fault. -/
theorem errors_of_mem_reports {fault : MachineError} (h : fault ∈ reports root path node) :
    fault.errors = [fault] := by
  unfold reports childReport? initialReport? targetReport? at h
  simp only [List.mem_append, List.mem_filterMap, Option.mem_toList] at h
  obtain (⟨entry, -, h⟩ | h) | ⟨target, -, h⟩ := h <;> (repeat' split at h) <;> cases h <;> rfl

end Node

namespace MachineError

variable {faults : List MachineError}

theorem allErrors_of_forall (h : ∀ fault ∈ faults, fault.errors = [fault]) :
    allErrors faults = faults := by
  induction faults with
  | nil => rw [allErrors]
  | cons fault rest ih =>
    rw [allErrors, h fault List.mem_cons_self, ih fun _ hmem => h _ (List.mem_cons_of_mem _ hmem)]
    rfl

/-- **The error for a list of single faults** gives these faults back. -/
theorem errors_ofFaults (h : ∀ fault ∈ faults, fault.errors = [fault]) :
    (ofFaults faults).errors = faults := by
  unfold ofFaults
  split
  · exact h _ (List.mem_singleton_self _)
  · rw [errors, allErrors_of_forall h]

theorem ofFaults_of_one_lt (h : 1 < faults.length) : ofFaults faults = invalidConfig faults := by
  unfold ofFaults
  split
  · exact absurd h (Nat.lt_irrefl 1)
  · rfl

/-- One error for a list of single faults gives them back; a fault that is alone is the error
itself, and several stand in it together. -/
theorem ofFaults_gathers (h : ∀ fault ∈ faults, fault.errors = [fault]) :
    (ofFaults faults).errors = faults
      ∧ (∀ fault, (ofFaults faults).errors = [fault] → ofFaults faults = fault)
      ∧ (1 < (ofFaults faults).errors.length →
          ofFaults faults = invalidConfig (ofFaults faults).errors) := by
  rw [errors_ofFaults h]
  refine ⟨rfl, fun fault halone => ?_, ofFaults_of_one_lt⟩
  rw [halone]
  rfl

/-- A value is given where there are no faults. -/
theorem unlessFaulty_eq_ok_iff {α : Type} {value found : α} :
    unlessFaulty faults value = .ok found ↔ faults = [] ∧ value = found := by
  rw [unlessFaulty, ← List.isEmpty_iff]
  split
  · rename_i hempty
    rw [Except.ok.injEq, and_iff_right hempty]
  · rename_i hempty
    exact iff_of_false nofun fun h => hempty h.1

/-- Where there are faults, the error is the one that is made of them. -/
theorem unlessFaulty_eq_error_iff {α : Type} {value : α} {error : MachineError} :
    unlessFaulty faults value = .error error ↔ faults ≠ [] ∧ error = ofFaults faults := by
  rw [unlessFaulty, Ne, ← List.isEmpty_iff]
  split
  · rename_i hempty
    exact iff_of_false nofun fun h => h.1 hempty
  · rename_i hempty
    rw [Except.error.injEq, and_iff_right hempty, eq_comm]

end MachineError

namespace Tree

/-- **The well-formed roots are trees, and of the others everything is reported.**
Emptying a stack with the root on it is a visit, and there is no other. Of a root that
is not well-formed the single faults of the error are the reports of all its nodes in
the order of a visit. A report that is alone is the error itself, and several stand in
it together. -/
theorem ofNode_checks (root : Node) :
    (∀ visits, Node.Unstacks (fun node => node.children.toList.reverse) [(.root, root)] visits
        ↔ root.IsVisit visits)
      ∧ ((∃ tree, Tree.ofNode root = .ok tree ∧ tree.root = root) ↔ root.WellFormed)
      ∧ (¬ root.WellFormed → ∃ error visits, Tree.ofNode root = .error error
          ∧ root.IsVisit visits
          ∧ error.errors = visits.flatMap (fun visit => root.reports visit.1 visit.2)
          ∧ (∀ fault, error.errors = [fault] → error = fault)
          ∧ (1 < error.errors.length → error = .invalidConfig error.errors)) := by
  refine ⟨root.unstacks_root_iff, ?_⟩
  rw [← Node.faults_eq_nil_iff]
  unfold Tree.ofNode
  by_cases hnil : root.faults = []
  · rw [dif_pos hnil]
    exact ⟨iff_of_true ⟨_, rfl, rfl⟩ hnil, absurd hnil⟩
  · rw [dif_neg hnil]
    refine ⟨iff_of_false nofun hnil, fun _ => ?_⟩
    have hfaults := Node.faults_eq_reports root.isVisit_visits
    have hsingle : ∀ fault ∈ root.faults, fault.errors = [fault] := by
      intro fault hmem
      rw [hfaults] at hmem
      obtain ⟨visit, -, hreport⟩ := List.mem_flatMap.mp hmem
      exact Node.errors_of_mem_reports hreport
    have herrors := MachineError.errors_ofFaults hsingle
    refine ⟨.ofFaults root.faults, root.visits, rfl, root.isVisit_visits, herrors.trans hfaults,
      fun fault halone => ?_, fun hlt => ?_⟩
    · rw [herrors] at halone
      rw [halone]
      rfl
    · rw [herrors] at hlt ⊢
      exact MachineError.ofFaults_of_one_lt hlt

/-- A lamp with everything wrong: it does not say in which state it starts, the key of
one state has a dot, and the other state has another id than its key, enters a state
that does not exist, and fades to that state or to the lamp itself. -/
def miswired : Node :=
  { Node.leaf "lamp" with
    children := .ofList [
      ("o.ff", .leaf "off"),
      ("on",
        { Node.leaf "lit" with
          initial := some "dim"
          children := .ofList [("bright", .leaf "")]
          transitions := .ofList [
            ("fade", .absolute ⟨["on", "dim"]⟩), ("flip", .absolute .root)] })] }

/-- Everything that is wrong with the lamp is reported, and in which order. -/
theorem ofNode_checks_miswired : ¬ miswired.WellFormed
    ∧ ∃ error, Tree.ofNode miswired = .error error ∧ error.errors = [
      .invalidStateId "o.ff", .invalidStateId "lit", .missingInitial "machine",
      .unknownState "on.dim", .unknownState "on.dim", .unknownState "#"] := by
  have hbad : ¬ miswired.WellFormed := fun h =>
    ((h .root miswired rfl).keys "o.ff" (.leaf "off") rfl).2.1 (by decide)
  obtain ⟨error, visits, herror, hvisit, herrors, -⟩ := (ofNode_checks miswired).2.2 hbad
  refine ⟨hbad, error, herror, herrors.trans ?_⟩
  rw [hvisit.unique miswired.isVisit_visits]
  rfl

end Tree

end Statechart
