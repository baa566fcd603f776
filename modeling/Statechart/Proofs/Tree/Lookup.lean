import Statechart.KeyMap.Lemmas
import Statechart.Proofs.Path.Prefix
import Statechart.Tree.Basic

/-!
# Finding nodes in a tree

`Tree.get?` answers for a path with a node or with nothing, and goes along with
the shape of paths: the root is always there, and a child is there if its parent
is there and has a child under that key (`Tree.get?_child`). So the paths that
exist are closed outwards (`Tree.HasNode.of_startsWith`).

`Tree.resolve` looks the same paths up one key at a time and finds the same nodes
(`Tree.resolve_eq_ok_iff`).
-/

namespace Statechart

namespace Node

mutual

theorem induction_node {motive : Node → Prop}
    (step : ∀ node : Node, (∀ key child, node.child? key = some child → motive child) →
      motive node) : ∀ node : Node, motive node
  | ⟨id, initial, children, transitions, entry, exit⟩ =>
    step ⟨id, initial, children, transitions, entry, exit⟩
      (fun _ _ h => induction_among step children h)

theorem induction_among {motive : Node → Prop}
    (step : ∀ node : Node, (∀ key child, node.child? key = some child → motive child) →
      motive node) {bound : Option String} :
    ∀ (children : KeyMap Node bound) {key : String} {child : Node},
      children.get? key = some child → motive child
  | .nil, _, _, h => nomatch h
  | .cons first _ node rest, key, child, h => by
    rw [KeyMap.get?] at h
    split at h
    · exact Option.some.inj h ▸ induction_node step node
    · exact induction_among step rest h

end

/-- **What goes from the children of a node to the node** holds of every node. -/
@[elab_as_elim] theorem induction {motive : Node → Prop} (node : Node)
    (step : ∀ node : Node, (∀ key child, node.child? key = some child → motive child) →
      motive node) : motive node :=
  induction_node step node

@[simp] theorem descend?_nil (node : Node) : node.descend? [] = some node := by
  rw [descend?]

theorem descend?_append (node : Node) (outer inner : List String) :
    node.descend? (outer ++ inner) = (node.descend? outer).bind (·.descend? inner) := by
  induction outer generalizing node with
  | nil => rw [List.nil_append, descend?_nil, Option.bind_some]
  | cons key rest ih =>
    rw [List.cons_append, descend?, descend?, Option.bind_assoc]
    exact congrArg _ (funext fun child => ih child)

/-- **A child is found through its parent.** -/
theorem get?_child (root : Node) (path : Path) (key : String) :
    root.get? (path.child key) = (root.get? path).bind (·.child? key) := by
  show root.descend? (path.segments ++ [key]) = (root.descend? path.segments).bind _
  rw [descend?_append]
  refine congrArg _ (funext fun node => ?_)
  rw [descend?]
  cases node.child? key <;> rfl

/-- A node is not a leaf exactly if it has a child. -/
theorem isLeaf_eq_false_iff {node : Node} :
    node.isLeaf = false ↔ ∃ key child, node.child? key = some child := by
  unfold isLeaf child?
  cases node.children with
  | nil => exact iff_of_false nofun nofun
  | cons key above child rest => exact iff_of_true rfl ⟨key, child, if_pos rfl⟩

end Node

namespace Tree

variable {tree : Tree} {path outer : Path} {node : Node}

/-- There is a node at a path. -/
def HasNode (tree : Tree) (path : Path) : Prop := ∃ node, tree.get? path = some node

/-- There is a node without children at a path. -/
def HasLeaf (tree : Tree) (path : Path) : Prop :=
  ∃ node, tree.get? path = some node ∧ node.isLeaf = true

theorem HasLeaf.hasNode (h : tree.HasLeaf path) : tree.HasNode path :=
  h.imp fun _ => And.left

@[simp] theorem get?_root (tree : Tree) : tree.get? .root = some tree.root :=
  Node.descend?_nil tree.root

/-- **A child is found through its parent.** -/
theorem get?_child (tree : Tree) (path : Path) (key : String) :
    tree.get? (path.child key) = (tree.get? path).bind (·.child? key) :=
  tree.root.get?_child path key

theorem get?_child_of_get? {child : Node} {key : String} (h : tree.get? path = some node)
    (hchild : node.child? key = some child) : tree.get? (path.child key) = some child := by
  rw [get?_child, h, Option.bind_some, hchild]

theorem hasNode_root (tree : Tree) : tree.HasNode .root := ⟨tree.root, get?_root tree⟩

/-- **Whatever lies around a node of the tree** is in the tree as well. -/
theorem HasNode.of_startsWith (h : tree.HasNode path) (houter : path.startsWith outer = true) :
    tree.HasNode outer := by
  induction path using Path.induction with
  | root => exact Path.eq_root_of_startsWith houter ▸ hasNode_root tree
  | child path key ih =>
    obtain heq | hlt := Path.startsWith_child_iff.mp houter
    · exact heq ▸ h
    · -- the parent is there with its child, and the path lies around it as well
      obtain ⟨node, hnode⟩ := h
      rw [get?_child] at hnode
      obtain ⟨parent, hparent, -⟩ := Option.bind_eq_some_iff.mp hnode
      exact ih ⟨parent, hparent⟩ hlt

/-! ## Looking up key by key -/

theorem resolveBelow_eq_ok_iff {keys : List String} {start found : Node} :
    resolveBelow path start keys = .ok found ↔ start.descend? keys = some found := by
  induction keys generalizing path start with
  | nil => rw [resolveBelow, Node.descend?, Except.ok.injEq, Option.some.injEq]
  | cons key rest ih =>
    rw [resolveBelow, Node.descend?]
    cases start.child? key with
    | none => exact ⟨nofun, nofun⟩
    | some child => exact ih

/-- **Looking a path up key by key** finds the same nodes. -/
theorem resolve_eq_ok_iff : tree.resolve path = .ok node ↔ tree.get? path = some node :=
  resolveBelow_eq_ok_iff

/-- **The first of the nodes on the way to a path** that are not in the tree. -/
structure IsFirstMissing (tree : Tree) (path missing : Path) : Prop where
  /-- It is on the way. -/
  around : path.startsWith missing = true
  /-- It is not in the tree. -/
  not_hasNode : ¬ tree.HasNode missing
  /-- It is the shortest of them. -/
  shortest : ∀ outer, path.startsWith outer = true → ¬ tree.HasNode outer →
    missing.length ≤ outer.length

theorem resolveBelow_eq_error {keys : List String} (h : tree.get? path = some node)
    (hnone : node.descend? keys = none) :
    ∃ missing, tree.IsFirstMissing ⟨path.segments ++ keys⟩ missing
      ∧ resolveBelow path node keys = .error (.unknownState missing.dotted) := by
  induction keys generalizing path node with
  | nil => exact nomatch (Node.descend?_nil node).symm.trans hnone
  | cons key rest ih =>
    have hpath : (⟨path.segments ++ key :: rest⟩ : Path) = ⟨(path.child key).segments ++ rest⟩ :=
      Path.ext_segments (List.append_cons _ _ _)
    rw [Node.descend?] at hnone
    rw [resolveBelow]
    cases hchild : node.child? key with
    | some child =>
      rw [hchild] at hnone
      rw [hpath]
      exact ih (get?_child_of_get? h hchild) hnone
    | none =>
      refine ⟨path.child key, ⟨?_, ?_, fun outer houter hmissing => ?_⟩, rfl⟩
      · rw [hpath]
        exact Path.startsWith_iff.mpr (List.prefix_append _ _)
      · rintro ⟨child, hsome⟩
        rw [get?_child, h, Option.bind_some, hchild] at hsome
        exact nomatch hsome
      · -- what is on the way and no longer than the node here is in the tree with it
        rw [Path.length_child]
        refine Nat.succ_le_of_lt (Nat.not_le.mp fun hle => hmissing ?_)
        have haround : Path.startsWith ⟨path.segments ++ key :: rest⟩ path = true :=
          Path.startsWith_iff.mpr (List.prefix_append _ _)
        have hhere : tree.HasNode path := ⟨node, h⟩
        exact hhere.of_startsWith ((Path.startsWith_iff_length_le houter haround).mpr hle)

/-- **A path that leads nowhere** is refused with the first node on the way that is not
there. -/
theorem resolve_eq_error (h : ¬ tree.HasNode path) :
    ∃ missing, tree.IsFirstMissing path missing
      ∧ tree.resolve path = .error (.unknownState missing.dotted) :=
  resolveBelow_eq_error (get?_root tree)
    (Option.eq_none_iff_forall_ne_some.mpr fun node hnode => h ⟨node, hnode⟩)

end Tree

end Statechart
