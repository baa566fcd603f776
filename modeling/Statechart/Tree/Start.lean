import Statechart.Tree.Basic

/-!
# Starting somewhere else

`Tree.startingAt` makes a tree that starts at a given state: every node on the
way to it takes the next one as its initial child. The state itself keeps its
own choice, so if it is compound, entering it goes on as before.
-/

namespace Statechart

/-- The node at a path, with every node on the way along `keys` made the initial
child of the one before. The error names the first node that does not exist. -/
def Node.leadingTo (path : Path) (node : Node) : List String → Except MachineError Node
  | [] => .ok node
  | key :: rest =>
    match node.child? key with
    | none => .error (.unknownState (path.child key).dotted)
    | some child => do
      let child ← child.leadingTo (path.child key) rest
      return { node with initial := some key, children := node.children.insert key child }

/-- **The tree that starts at a given state** and is otherwise the same. -/
def Tree.startingAt (tree : Tree) (start : Path) : Except MachineError Tree := do
  Tree.ofNode (← tree.root.leadingTo .root start.segments)

end Statechart
