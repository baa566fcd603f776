import Statechart.KeyMap
import Statechart.Target

/-!
# Nodes of a statechart

A node is a state with everything below it. Its children are known by their
keys: the key of a child, not its `id`, is what a path names. A node with
children is compound, and entering it means entering its initial child as well;
a node without is a leaf.
-/

namespace Statechart

/-- **A state with its substates.** -/
structure Node where
  /-- The id it was declared with; empty if the key alone names it. -/
  id : String
  /-- The key of the child that is entered with it. -/
  initial : Option String
  /-- The substates, by their keys. -/
  children : KeyMap Node
  /-- Where each event leads. -/
  transitions : KeyMap Target
  /-- The action that runs when it is entered. -/
  entry : Option String
  /-- The action that runs when it is exited. -/
  exit : Option String

namespace Node

/-- A leaf with nothing but an id. -/
def leaf (id : String) : Node := ⟨id, none, .nil, .nil, none, none⟩

instance : Inhabited Node := ⟨leaf ""⟩

/-- Whether a node has no children. -/
def isLeaf (node : Node) : Bool := node.children.isEmpty

/-- The child under a key. -/
def child? (node : Node) (key : String) : Option Node := node.children.get? key

/-- The child that is entered with the node, if it names one that exists. -/
def initialChild? (node : Node) : Option Node := node.initial.bind node.child?

/-- Where an event leads, as declared on this node alone. -/
def transition? (node : Node) (event : String) : Option Target := node.transitions.get? event

/-- The node reached by a list of keys. -/
def descend? (node : Node) : List String → Option Node
  | [] => some node
  | key :: rest => (node.child? key).bind (·.descend? rest)

/-- The node at a path below this one. -/
def get? (node : Node) (path : Path) : Option Node := node.descend? path.segments

/-! ## Equality -/

mutual

/-- Two nodes are equal exactly if all their parts are. -/
protected def decEq : (left right : Node) → Decidable (left = right)
  | ⟨id, initial, children, transitions, entry, exit⟩,
    ⟨id', initial', children', transitions', entry', exit'⟩ =>
    if h : id = id' ∧ initial = initial' ∧ transitions = transitions' ∧ entry = entry'
        ∧ exit = exit' then
      match decEqChildren children children' with
      | isTrue hchildren => isTrue (by obtain ⟨rfl, rfl, rfl, rfl, rfl⟩ := h; rw [hchildren])
      | isFalse hchildren => isFalse fun same => hchildren (by cases same; rfl)
    else isFalse fun same => h (by cases same; exact ⟨rfl, rfl, rfl, rfl, rfl⟩)

/-- Two maps of nodes are equal exactly if they hold equal nodes under the same
keys. -/
def decEqChildren {bound : Option String} :
    (left right : KeyMap Node bound) → Decidable (left = right)
  | .nil, .nil => isTrue rfl
  | .nil, .cons _ _ _ _ => isFalse nofun
  | .cons _ _ _ _, .nil => isFalse nofun
  | .cons key _ node rest, .cons key' _ node' rest' =>
    if hkey : key = key' then by
      subst hkey
      exact
        match node.decEq node', decEqChildren rest rest' with
        | isTrue hnode, isTrue hrest => isTrue (by subst hnode hrest; rfl)
        | isFalse hnode, _ => isFalse fun same => hnode (by cases same; rfl)
        | _, isFalse hrest => isFalse fun same => hrest (by cases same; rfl)
    else isFalse fun same => hkey (by cases same; rfl)

end

instance : DecidableEq Node := Node.decEq

end Node

end Statechart
