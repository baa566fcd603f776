import Statechart.Tree.Basic

/-!
# All nodes of a tree

`Tree.walk` lists every node with its path. A node comes before its children,
and siblings come in ascending order of their keys, so the paths are in
ascending order too.
-/

namespace Statechart

namespace Node

mutual

/-- The node at a path and all nodes below it, with their paths. -/
def walkBelow (path : Path) : Node → List (Path × Node)
  | ⟨id, initial, children, transitions, entry, exit⟩ =>
    (path, ⟨id, initial, children, transitions, entry, exit⟩) :: walkAmong path children

/-- Some siblings and all nodes below them, with their paths. -/
def walkAmong (path : Path) {bound : Option String} :
    KeyMap Node bound → List (Path × Node)
  | .nil => []
  | .cons key _ child rest => walkBelow (path.child key) child ++ walkAmong path rest

end

end Node

/-- **Every node of a tree with its path**, in ascending order of the paths. -/
def Tree.walk (tree : Tree) : List (Path × Node) := tree.root.walkBelow .root

end Statechart
