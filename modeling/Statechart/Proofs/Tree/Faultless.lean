import Statechart.Proofs.Tree.Lookup

/-!
# What a tree without faults guarantees

The root of a `Tree` has no faults, and the list of its faults is put together
from those of all its nodes, so no node of the tree has any
(`Tree.ownFaults_eq_nil`). In what follows this is used in two forms: a node with
children names one of them as initial (`Tree.exists_initialChild`), and every
transition leads to a node other than the root (`Tree.target_hasNode`).

The first of them makes `Tree.leafOf` succeed wherever there is a node
(`Tree.leafOf_eq_ok`): the descent from child to child always finds the next one,
and it ends because the tree does.
-/

namespace Statechart

namespace Node

theorem faultsBelow_eq (root : Node) (path : Path) (node : Node) :
    faultsBelow root path node
      = ownFaults root path node ++ faultsAmong root path node.children := by
  obtain ⟨id, initial, children, transitions, entry, exit⟩ := node
  rw [faultsBelow]

/-- Children without faults have none of their own. -/
theorem faultsBelow_eq_nil_of_child {root : Node} {path : Path} {bound : Option String}
    {children : KeyMap Node bound} {key : String} {child : Node}
    (h : faultsAmong root path children = []) (hchild : children.get? key = some child) :
    faultsBelow root (path.child key) child = [] := by
  induction children with
  | nil => exact nomatch hchild
  | cons first above node rest ih =>
    rw [faultsAmong] at h
    obtain ⟨hrest, hnode⟩ := List.append_eq_nil_iff.mp h
    rw [KeyMap.get?] at hchild
    split at hchild
    · rename_i heq
      rw [heq, ← Option.some.inj hchild]
      exact hnode
    · exact ih hrest hchild

end Node

namespace Tree

variable {tree : Tree} {path : Path} {node : Node}

/-- **A root without faults is made a tree as it is.** -/
theorem ofNode_eq_ok_iff {root : Node} : Tree.ofNode root = .ok tree ↔ tree.root = root := by
  unfold Tree.ofNode
  constructor
  · intro ok
    split at ok
    · rw [← Except.ok.inj ok]
    · exact nomatch ok
  · rintro rfl
    exact dif_pos tree.faultless

/-- Below a node of a tree there are no faults. -/
theorem faultsBelow_eq_nil (h : tree.get? path = some node) :
    Node.faultsBelow tree.root path node = [] := by
  induction path using Path.induction generalizing node with
  | root =>
    rw [get?_root, Option.some.injEq] at h
    exact h ▸ tree.faultless
  | child outer key ih =>
    rw [get?_child] at h
    obtain ⟨parent, hparent, hchild⟩ := Option.bind_eq_some_iff.mp h
    have hbelow := ih hparent
    rw [Node.faultsBelow_eq] at hbelow
    exact Node.faultsBelow_eq_nil_of_child (List.append_eq_nil_iff.mp hbelow).2 hchild

/-- **No node of a tree has faults.** -/
theorem ownFaults_eq_nil (h : tree.get? path = some node) :
    Node.ownFaults tree.root path node = [] := by
  have hbelow := faultsBelow_eq_nil h
  rw [Node.faultsBelow_eq] at hbelow
  exact (List.append_eq_nil_iff.mp hbelow).1

/-- **A node with children names one of them** as the initial one. -/
theorem exists_initialChild (h : tree.get? path = some node) (hleaf : node.isLeaf = false) :
    ∃ key child, node.initial = some key ∧ node.child? key = some child := by
  have hown := ownFaults_eq_nil h
  unfold Node.ownFaults at hown
  have hinitial := (List.append_eq_nil_iff.mp (List.append_eq_nil_iff.mp hown).1).2
  rw [Node.initialFaults, hleaf, if_neg Bool.false_ne_true] at hinitial
  cases hkey : node.initial with
  | none => simp [hkey] at hinitial
  | some key =>
    cases hchild : node.child? key with
    | none => simp [hkey, hchild] at hinitial
    | some child => exact ⟨key, child, rfl, hchild⟩

/-- **A transition leads to a node other than the root.** -/
theorem target_hasNode {event : String} {target : Target} (h : tree.get? path = some node)
    (htarget : node.transition? event = some target) :
    (target.resolveFrom path).isRoot = false ∧ tree.HasNode (target.resolveFrom path) := by
  have hown := ownFaults_eq_nil h
  unfold Node.ownFaults at hown
  have htargets := (List.append_eq_nil_iff.mp hown).2
  -- the target is one of those that have been checked
  have hmem : target ∈ node.transitions.values :=
    List.mem_map.mpr ⟨(event, target), KeyMap.mem_toList_iff.mpr htarget, rfl⟩
  have hfaults := List.flatMap_eq_nil_iff.mp htargets target hmem
  unfold Node.targetFaults at hfaults
  cases hroot : (target.resolveFrom path).isRoot with
  | true => simp [hroot] at hfaults
  | false =>
    refine ⟨rfl, ?_⟩
    cases hnode : tree.root.get? (target.resolveFrom path) with
    | none => simp [hroot, hnode] at hfaults
    | some node => exact ⟨node, hnode⟩

/-! ## The default leaf -/

theorem leafThrough_eq {key : String} {child : Node} {bound : Option String}
    {children : KeyMap Node bound} (h : children.get? key = some child) :
    Node.leafThrough path key children = child.leafBelow (path.child key) := by
  induction children with
  | nil => exact nomatch h
  | cons first above node rest ih =>
    rw [KeyMap.get?] at h
    rw [Node.leafThrough]
    split at h
    · rename_i heq
      rw [if_pos heq, heq, Option.some.inj h]
    · rename_i hne
      rw [if_neg hne]
      exact ih h

theorem leafBelow_of_isLeaf (path : Path) (h : node.isLeaf = true) :
    node.leafBelow path = .ok path := by
  obtain ⟨id, initial, children, transitions, entry, exit⟩ := node
  unfold Node.leafBelow
  exact if_pos h

/-- A node with children is left through its initial child. -/
theorem leafBelow_of_inner (path : Path) (h : node.isLeaf = false) :
    node.leafBelow path = match node.initial with
      | none => .error (.missingInitial path.label)
      | some key => Node.leafThrough path key node.children := by
  obtain ⟨id, initial, children, transitions, entry, exit⟩ := node
  have hne : ¬ children.isEmpty = true := fun hleaf => Bool.false_ne_true (h.symm.trans hleaf)
  rw [Node.leafBelow.eq_def]
  exact if_neg hne

/-- The leaf of a node with children is that of its initial child. -/
theorem leafBelow_of_initialChild {key : String} {child : Node} (hleaf : node.isLeaf = false)
    (hkey : node.initial = some key) (hchild : node.child? key = some child) :
    node.leafBelow path = child.leafBelow (path.child key) := by
  rw [leafBelow_of_inner path hleaf, hkey]
  exact leafThrough_eq hchild

theorem leafBelow_eq_ok (h : tree.get? path = some node) :
    ∃ leaf, node.leafBelow path = .ok leaf ∧ leaf.startsWith path = true ∧ tree.HasLeaf leaf := by
  induction node using Node.induction generalizing path with
  | step node ih =>
    cases hleaf : node.isLeaf with
    | true =>
      exact ⟨path, leafBelow_of_isLeaf path hleaf, Path.startsWith_self path, node, h, hleaf⟩
    | false =>
      -- the descent goes on at the initial child
      obtain ⟨key, child, hkey, hchild⟩ := exists_initialChild h hleaf
      obtain ⟨leaf, hok, hbelow, hhas⟩ := ih key child hchild (get?_child_of_get? h hchild)
      refine ⟨leaf, ?_, Path.startsWith_of_child hbelow, hhas⟩
      rw [leafBelow_of_initialChild hleaf hkey hchild, hok]

/-- The leaf of a node is that of everything below it. -/
theorem leafOf_eq (h : tree.get? path = some node) : tree.leafOf path = node.leafBelow path := by
  unfold leafOf
  rw [resolve_eq_ok_iff.mpr h]
  rfl

/-- **Entering a node of a tree arrives at a leaf** at or below it. -/
theorem leafOf_eq_ok (h : tree.HasNode path) :
    ∃ leaf, tree.leafOf path = .ok leaf ∧ leaf.startsWith path = true ∧ tree.HasLeaf leaf := by
  obtain ⟨node, hnode⟩ := h
  obtain ⟨leaf, hok, hrest⟩ := leafBelow_eq_ok hnode
  exact ⟨leaf, (leafOf_eq hnode).trans hok, hrest⟩

end Tree

end Statechart
