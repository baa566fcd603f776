import Statechart.Node.Basic

/-!
# State trees

A `Tree` is a root node without faults: the key of every child can stand in a
path and agrees with the child's id, every compound node names one of its
children as the initial one, and every transition leads to a state below the
root. `Tree.ofNode` checks a node and reports all of its faults.

In a tree every path leads somewhere or nowhere (`Tree.get?`, `Tree.resolve`),
and below every node there is one leaf that entering it by default arrives at
(`Tree.leafOf`).
-/

namespace Statechart

namespace Node

/-! ## Faults -/

/-- What is wrong with the key and the id of a child. -/
def keyFaults (key : String) (child : Node) : List MachineError :=
  if !isStateId key then [.invalidStateId key]
  else if !child.id.isEmpty && child.id != key then [.invalidStateId child.id]
  else []

/-- What is wrong with the choice of the initial child of the node at a path. -/
def initialFaults (path : Path) (node : Node) : List MachineError :=
  if node.isLeaf then []
  else match node.initial with
    | none => [.missingInitial path.label]
    | some key =>
      if (node.child? key).isNone then [.unknownState (path.child key).dotted] else []

/-- What is wrong with a target that the node at a path names. -/
def targetFaults (root : Node) (path : Path) (target : Target) : List MachineError :=
  let aim := target.resolveFrom path
  if aim.isRoot then [.unknownState target.text]
  else if (root.get? aim).isNone then [.unknownState aim.dotted]
  else []

/-- What is wrong with the node at a path itself: the keys of its children, the
choice of the initial one, and the targets of its transitions. -/
def ownFaults (root : Node) (path : Path) (node : Node) : List MachineError :=
  node.children.toList.flatMap (fun (key, child) => keyFaults key child)
    ++ node.initialFaults path
    ++ node.transitions.values.flatMap (targetFaults root path)

mutual

/-- The faults of the node at a path and of all nodes below it. A node comes
before its children, and of two siblings the one with the greater key comes
first. -/
def faultsBelow (root : Node) (path : Path) : Node → List MachineError
  | ⟨id, initial, children, transitions, entry, exit⟩ =>
    ownFaults root path ⟨id, initial, children, transitions, entry, exit⟩
      ++ faultsAmong root path children

/-- The faults of some siblings and of all nodes below them. -/
def faultsAmong (root : Node) (path : Path) {bound : Option String} :
    KeyMap Node bound → List MachineError
  | .nil => []
  | .cons key _ child rest =>
    faultsAmong root path rest ++ faultsBelow root (path.child key) child

end

/-- **Everything that keeps a root node from being a state tree.** -/
def faults (root : Node) : List MachineError := faultsBelow root .root root

/-! ## The default leaf -/

mutual

/-- The leaf that entering the node at a path arrives at. -/
def leafBelow (path : Path) : Node → Except MachineError Path
  | ⟨_, initial, children, _, _, _⟩ =>
    if children.isEmpty then .ok path
    else match initial with
      | none => .error (.missingInitial path.label)
      | some key => leafThrough path key children

/-- The leaf that entering one of some siblings arrives at, the one with the
given key. -/
def leafThrough (path : Path) (key : String) {bound : Option String} :
    KeyMap Node bound → Except MachineError Path
  | .nil => .error (.missingInitial path.label)
  | .cons first _ child rest =>
    if key = first then leafBelow (path.child first) child else leafThrough path key rest

end

end Node

/-- **A root node without faults.** -/
structure Tree where
  /-- The root node. -/
  root : Node
  /-- Nothing is wrong with it. -/
  faultless : root.faults = []
deriving DecidableEq

namespace Tree

/-- **The tree with a given root**, or everything that is wrong with the
root. -/
def ofNode (root : Node) : Except MachineError Tree :=
  if h : root.faults = [] then .ok ⟨root, h⟩ else .error (.ofFaults root.faults)

/-- The node at a path. -/
def get? (tree : Tree) (path : Path) : Option Node := tree.root.get? path

/-- The node reached by keys from the node at a path. The error names the first
node on the way that does not exist. -/
def resolveBelow (path : Path) (node : Node) : List String → Except MachineError Node
  | [] => .ok node
  | key :: rest =>
    match node.child? key with
    | none => .error (.unknownState (path.child key).dotted)
    | some child => resolveBelow (path.child key) child rest

/-- The node at a path. The error names the first node on the way that does not
exist. -/
def resolve (tree : Tree) (path : Path) : Except MachineError Node :=
  resolveBelow .root tree.root path.segments

/-- **The leaf that entering the node at a path arrives at.** -/
def leafOf (tree : Tree) (path : Path) : Except MachineError Path := do
  (← tree.resolve path).leafBelow path

end Tree

end Statechart
