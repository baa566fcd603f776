import Statechart.Action.Binding
import Statechart.Proofs.Tree.Start
import Statechart.Transition

/-!
# Ids are only labels

A node is known by its key, and what it calls itself is compared with the key when a root is
checked and plays no part after that. To say so, every id is left out: a tree without ids is
a tree again (`Tree.withoutIds`), and whatever is asked of a tree has the same answer without
them – the same paths, leaves, transitions and bound actions, and the same errors. Where the
answer is a node or a tree, it is the same but for ids.

So two trees that are the same without ids give the same answers: both give those of the
one tree that has none.
-/

namespace Statechart

namespace Node

mutual

/-- The node with no ids, neither of itself nor of any node below it. -/
def withoutIds : Node → Node
  | ⟨_, initial, children, transitions, entry, exit⟩ =>
    ⟨"", initial, withoutIdsAmong children, transitions, entry, exit⟩

/-- Some siblings with no ids, neither of themselves nor of any node below them. -/
def withoutIdsAmong {bound : Option String} : KeyMap Node bound → KeyMap Node bound
  | .nil => .nil
  | .cons key above child rest => .cons key above child.withoutIds (withoutIdsAmong rest)

end

variable {node root : Node} {path : Path} {bound : Option String}

/-! ## What is left of a node -/

theorem withoutIds_eq (node : Node) :
    node.withoutIds = { node with id := "", children := withoutIdsAmong node.children } := by
  obtain ⟨id, initial, children, transitions, entry, exit⟩ := node
  rw [withoutIds]

@[simp] theorem id_withoutIds (node : Node) : node.withoutIds.id = "" := by
  rw [withoutIds_eq]

@[simp] theorem initial_withoutIds (node : Node) : node.withoutIds.initial = node.initial := by
  rw [withoutIds_eq]

@[simp] theorem children_withoutIds (node : Node) :
    node.withoutIds.children = withoutIdsAmong node.children := by
  rw [withoutIds_eq]

@[simp] theorem transitions_withoutIds (node : Node) :
    node.withoutIds.transitions = node.transitions := by
  rw [withoutIds_eq]

@[simp] theorem entry_withoutIds (node : Node) : node.withoutIds.entry = node.entry := by
  rw [withoutIds_eq]

@[simp] theorem exit_withoutIds (node : Node) : node.withoutIds.exit = node.exit := by
  rw [withoutIds_eq]

@[simp] theorem transition?_withoutIds (node : Node) (event : String) :
    node.withoutIds.transition? event = node.transition? event := by
  unfold transition?
  rw [transitions_withoutIds]

theorem get?_withoutIdsAmong (children : KeyMap Node bound) (key : String) :
    (withoutIdsAmong children).get? key = (children.get? key).map withoutIds := by
  induction children with
  | nil => rw [withoutIdsAmong]; rfl
  | cons first above child rest ih =>
    rw [withoutIdsAmong, KeyMap.get?, KeyMap.get?, ih]
    split <;> rfl

@[simp] theorem isEmpty_withoutIdsAmong (children : KeyMap Node bound) :
    (withoutIdsAmong children).isEmpty = children.isEmpty := by
  cases children with
  | nil => rw [withoutIdsAmong]
  | cons => rw [withoutIdsAmong]; rfl

/-- **A child is the same but for ids**, and is under the same key. -/
@[simp] theorem child?_withoutIds (node : Node) (key : String) :
    node.withoutIds.child? key = (node.child? key).map withoutIds := by
  unfold child?
  rw [children_withoutIds, get?_withoutIdsAmong]

@[simp] theorem isLeaf_withoutIds (node : Node) : node.withoutIds.isLeaf = node.isLeaf := by
  unfold isLeaf
  rw [children_withoutIds, isEmpty_withoutIdsAmong]

theorem descend?_withoutIds (node : Node) (keys : List String) :
    node.withoutIds.descend? keys = (node.descend? keys).map withoutIds := by
  induction keys generalizing node with
  | nil => rw [descend?_nil, descend?_nil, Option.map_some]
  | cons key rest ih =>
    rw [descend?, descend?, child?_withoutIds]
    cases node.child? key with
    | none => rfl
    | some child => exact ih child

theorem get?_withoutIds (root : Node) (path : Path) :
    root.withoutIds.get? path = (root.get? path).map withoutIds :=
  descend?_withoutIds root path.segments

/-- **A root that is well-formed** is so without ids. -/
theorem WellFormed.withoutIds (h : root.WellFormed) : root.withoutIds.WellFormed := by
  intro path nameless hnameless
  rw [get?_withoutIds] at hnameless
  obtain ⟨node, hnode, rfl⟩ := Option.map_eq_some_iff.mp hnameless
  have hwell := h path node hnode
  refine ⟨fun key nameless' hchild => ?_, fun hleaf => ?_, fun event target htarget => ?_⟩
  · rw [child?_withoutIds] at hchild
    obtain ⟨child, hsome, rfl⟩ := Option.map_eq_some_iff.mp hchild
    obtain ⟨hne, hdot, -⟩ := hwell.keys key child hsome
    exact ⟨hne, hdot, .inl (id_withoutIds child)⟩
  · rw [isLeaf_withoutIds] at hleaf
    obtain ⟨key, child, hkey, hchild⟩ := hwell.initial hleaf
    refine ⟨key, child.withoutIds, (initial_withoutIds node).trans hkey, ?_⟩
    rw [child?_withoutIds, hchild, Option.map_some]
  · rw [transition?_withoutIds] at htarget
    obtain ⟨hne, aim, haim⟩ := hwell.targets event target htarget
    refine ⟨hne, aim.withoutIds, ?_⟩
    rw [get?_withoutIds, haim, Option.map_some]

/-! ## What is made of a node -/

mutual

theorem leafBelow_withoutIds (path : Path) : ∀ node : Node,
    node.withoutIds.leafBelow path = node.leafBelow path
  | ⟨id, initial, children, transitions, entry, exit⟩ => by
    rw [withoutIds, leafBelow.eq_def, leafBelow.eq_def]
    dsimp only
    rw [isEmpty_withoutIdsAmong]
    cases initial with
    | none => rfl
    | some key => dsimp only; rw [leafThrough_withoutIds path key children]

theorem leafThrough_withoutIds (path : Path) (key : String) {bound : Option String} :
    ∀ children : KeyMap Node bound,
      leafThrough path key (withoutIdsAmong children) = leafThrough path key children
  | .nil => by rw [withoutIdsAmong]
  | .cons first _ child rest => by
    rw [withoutIdsAmong, leafThrough, leafThrough, leafBelow_withoutIds (path.child first) child,
      leafThrough_withoutIds path key rest]

end

mutual

theorem walkBelow_withoutIds (path : Path) : ∀ node : Node,
    node.withoutIds.walkBelow path
      = (node.walkBelow path).map fun visit => (visit.1, visit.2.withoutIds)
  | ⟨id, initial, children, transitions, entry, exit⟩ => by
    rw [withoutIds, walkBelow, walkBelow, List.map_cons, walkAmong_withoutIds path children,
      withoutIds]

theorem walkAmong_withoutIds (path : Path) {bound : Option String} :
    ∀ children : KeyMap Node bound,
      walkAmong path (withoutIdsAmong children)
        = (walkAmong path children).map fun visit => (visit.1, visit.2.withoutIds)
  | .nil => by rw [withoutIdsAmong, walkAmong, List.map_nil]
  | .cons key _ child rest => by
    rw [withoutIdsAmong, walkAmong, walkAmong, List.map_append,
      walkBelow_withoutIds (path.child key) child, walkAmong_withoutIds path rest]

end

theorem resolveBelow_withoutIds (path : Path) (node : Node) (keys : List String) :
    Tree.resolveBelow path node.withoutIds keys
      = (Tree.resolveBelow path node keys).map withoutIds := by
  induction keys generalizing path node with
  | nil => rfl
  | cons key rest ih =>
    rw [Tree.resolveBelow, Tree.resolveBelow, child?_withoutIds]
    cases node.child? key with
    | none => rfl
    | some child => exact ih (path.child key) child

theorem withoutIdsAmong_insert (children : KeyMap Node) (key : String) (child : Node) :
    withoutIdsAmong (children.insert key child)
      = (withoutIdsAmong children).insert key child.withoutIds := by
  refine KeyMap.ext_get? fun asked => ?_
  rw [get?_withoutIdsAmong, KeyMap.get?_insert, KeyMap.get?_insert, get?_withoutIdsAmong]
  split <;> rfl

theorem leadingTo_withoutIds (path : Path) (node : Node) (keys : List String) :
    node.withoutIds.leadingTo path keys = (node.leadingTo path keys).map withoutIds := by
  induction keys generalizing path node with
  | nil => rw [leadingTo_nil, leadingTo_nil]; rfl
  | cons key rest ih =>
    rw [leadingTo, leadingTo, child?_withoutIds]
    cases node.child? key with
    | none => rfl
    | some child =>
      rw [Option.map_some]
      dsimp only
      rw [ih]
      cases child.leadingTo (path.child key) rest with
      | error error => rfl
      | ok child' =>
        refine congrArg Except.ok ?_
        simp only [withoutIds_eq, withoutIdsAmong_insert]

theorem declarations_withoutIds (path : Path) (node : Node) :
    node.withoutIds.declarations path = node.declarations path := by
  unfold declarations
  rw [entry_withoutIds, exit_withoutIds]

end Node

namespace Tree

/-- **The tree with no ids at all.** -/
def withoutIds (tree : Tree) : Tree where
  root := tree.root.withoutIds
  faultless := Node.faults_eq_nil_iff.mpr (Node.faults_eq_nil_iff.mp tree.faultless).withoutIds

variable (tree : Tree) (path : Path) (event : String)

/-! ## What is asked of a tree -/

theorem get?_withoutIds : tree.withoutIds.get? path = (tree.get? path).map Node.withoutIds :=
  tree.root.get?_withoutIds path

theorem resolve_withoutIds :
    tree.withoutIds.resolve path = (tree.resolve path).map Node.withoutIds :=
  tree.root.resolveBelow_withoutIds .root path.segments

theorem leafOf_withoutIds : tree.withoutIds.leafOf path = tree.leafOf path := by
  unfold leafOf
  rw [resolve_withoutIds]
  cases tree.resolve path with
  | error error => rfl
  | ok node => exact node.leafBelow_withoutIds path

theorem walk_withoutIds :
    tree.withoutIds.walk = tree.walk.map fun visit => (visit.1, visit.2.withoutIds) :=
  tree.root.walkBelow_withoutIds .root

theorem handler?_withoutIds : tree.withoutIds.handler? path event = tree.handler? path event := by
  unfold handler?
  refine congrArg (List.findSome? · path.ancestors) (funext fun outer => ?_)
  rw [get?_withoutIds]
  cases tree.get? outer with
  | none => rfl
  | some node =>
    rw [Option.map_some, Option.bind_some, Option.bind_some, node.transition?_withoutIds]

theorem transition_withoutIds :
    tree.withoutIds.transition path event = tree.transition path event := by
  unfold transition
  rw [resolve_withoutIds, handler?_withoutIds]
  cases tree.resolve path with
  | error error => rfl
  | ok _ =>
    cases hhandler : tree.handler? path event with
    | none => rfl
    | some found =>
      obtain ⟨node, hresolve, htarget⟩ := lookup_of_handler? hhandler
      simp only [bind, Except.bind, Except.map, resolve_withoutIds, hresolve,
        node.transition?_withoutIds, htarget, leafOf_withoutIds]

theorem nextEvents_withoutIds : tree.withoutIds.nextEvents path = tree.nextEvents path := by
  unfold nextEvents
  rw [funext tree.get?_withoutIds, ← List.map_filterMap, List.flatMap_map]
  simp only [Node.transitions_withoutIds]

theorem startingAt_withoutIds :
    tree.withoutIds.startingAt path = (tree.startingAt path).map withoutIds := by
  cases hstarted : tree.startingAt path with
  | error error =>
    refine startingAt_eq_error_iff.mpr ?_
    rw [resolve_withoutIds, startingAt_eq_error_iff.mp hstarted]
    rfl
  | ok started =>
    refine startingAt_eq_ok_iff.mpr ?_
    have hleads : tree.root.leadingTo .root path.segments = .ok started.root :=
      startingAt_eq_ok_iff.mp hstarted
    show tree.root.withoutIds.leadingTo .root path.segments = .ok started.root.withoutIds
    rw [Node.leadingTo_withoutIds, hleads]
    rfl

theorem declarations_withoutIds : tree.withoutIds.declarations = tree.declarations := by
  unfold declarations
  rw [walk_withoutIds, List.flatMap_map]
  simp only [Node.declarations_withoutIds]

theorem bind_withoutIds {α : Type} (registry : Registry α) :
    registry.bind tree.withoutIds = registry.bind tree := by
  unfold Registry.bind Registry.unknownActions
  rw [declarations_withoutIds]

variable {tree} {other : Tree}

/-- Trees are the same but for ids if their roots are. -/
theorem withoutIds_eq_of_root (h : other.root.withoutIds = tree.root.withoutIds) :
    other.withoutIds = tree.withoutIds := by
  unfold withoutIds
  simp only [h]

/-- **Trees that answer alike**: the ids of the nodes in an answer apart, whatever is asked of
one of them has the same answer as if it were asked of the other. -/
structure AnswersAs (tree other : Tree) : Prop where
  /-- The same nodes are listed. -/
  walk : other.walk.map Prod.fst = tree.walk.map Prod.fst
  /-- The same nodes are found. -/
  get? : ∀ path, (other.get? path).map Node.withoutIds = (tree.get? path).map Node.withoutIds
  /-- The same nodes are found key by key, and where there is none, the error is the same. -/
  resolve : ∀ path,
    (other.resolve path).map Node.withoutIds = (tree.resolve path).map Node.withoutIds
  /-- The same leaf is reached from every node. -/
  leafOf : ∀ path, other.leafOf path = tree.leafOf path
  /-- They can be made to start at the same paths, and are the same but for ids then. -/
  startingAt : ∀ start,
    (other.startingAt start).map withoutIds = (tree.startingAt start).map withoutIds
  /-- The same nodes handle an event. -/
  handler? : ∀ path event, other.handler? path event = tree.handler? path event
  /-- An event has the same transition, or the same reason why it has none. -/
  transition : ∀ path event, other.transition path event = tree.transition path event
  /-- The same events are handled. -/
  nextEvents : ∀ path, other.nextEvents path = tree.nextEvents path
  /-- The same actions are bound to the same steps, or the same ones are not known. -/
  bind : ∀ {α : Type} (registry : Registry α), registry.bind other = registry.bind tree

/-- **Trees that are the same but for ids** answer alike. -/
theorem answersAs (h : other.withoutIds = tree.withoutIds) : tree.AnswersAs other where
  walk := by
    have hpaths (tree : Tree) : tree.withoutIds.walk.map Prod.fst = tree.walk.map Prod.fst := by
      rw [walk_withoutIds, List.map_map]
      rfl
    rw [← hpaths other, h, hpaths tree]
  get? path := by rw [← get?_withoutIds, h, get?_withoutIds]
  resolve path := by rw [← resolve_withoutIds, h, resolve_withoutIds]
  leafOf path := by rw [← leafOf_withoutIds, h, leafOf_withoutIds]
  startingAt start := by rw [← startingAt_withoutIds, h, startingAt_withoutIds]
  handler? path event := by rw [← handler?_withoutIds, h, handler?_withoutIds]
  transition path event := by rw [← transition_withoutIds, h, transition_withoutIds]
  nextEvents path := by rw [← nextEvents_withoutIds, h, nextEvents_withoutIds]
  bind registry := by rw [← bind_withoutIds, h, bind_withoutIds]

end Tree

end Statechart
