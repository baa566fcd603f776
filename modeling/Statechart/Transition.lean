import Statechart.Tree.Basic

/-!
# Transitions

`Tree.transition` says what an event does while a path is active: which node
handles it, which leaf becomes active, and which nodes are exited and entered on
the way. It only reads the tree, so a failure leaves nothing half done.

The node that is named as the target is always exited and entered anew if it is
active already; nodes above it that stay active are neither.
-/

namespace Statechart

/-- **What an event does.** -/
structure Transition where
  /-- The event. -/
  event : String
  /-- The node that handles it. -/
  source : Path
  /-- The node that its handler names. -/
  target : Path
  /-- The leaf that becomes active. -/
  leaf : Path
  /-- The innermost node that stays active. -/
  domain : Path
  /-- The nodes to exit, innermost first. -/
  exits : List Path
  /-- The nodes to enter, outermost first. -/
  entries : List Path
deriving DecidableEq

/-- Whether a transition leaves a leaf and comes back to it. -/
def Transition.isSelfTransition (transition : Transition) : Bool :=
  transition.exits.head? == some transition.leaf
    && transition.exits.length == transition.entries.length

namespace Tree

/-- The innermost node at or above a path that handles an event, and where its
handler leads. -/
def handler? (tree : Tree) (current : Path) (event : String) : Option (Path × Target) :=
  current.ancestors.findSome? fun path =>
    ((tree.get? path).bind (·.transition? event)).map fun target => (path, target)

/-- **What an event does while a path is active.** The node that handles the event is
searched for first, and the handler is then looked up again at that node, which never
fails (`Tree.lookup_of_handler?`). -/
def transition (tree : Tree) (current : Path) (event : String) :
    Except MachineError Transition := do
  let _ ← tree.resolve current
  let some (source, _) := tree.handler? current event
    | .error (.noMatchingTransition event current.label)
  let node ← tree.resolve source
  let some handler := node.transition? event
    | .error (.noMatchingTransition event current.label)
  let target := handler.resolveFrom source
  if target.isRoot then .error (.unknownState handler.text)
  else
    let leaf ← tree.leafOf target
    let shared := current.commonPrefix leaf
    let domain := shared.truncated (min shared.length (target.length - 1))
    return {
      event, source, target, leaf, domain
      exits := current.ancestors.takeWhile fun path => domain.length < path.length
      entries := leaf.lineage.drop domain.length }

/-- The events that a node at or above a path handles, in ascending order. -/
def nextEvents (tree : Tree) (current : Path) : List String :=
  let events := (current.ancestors.filterMap tree.get?).flatMap (·.transitions.keys)
  (KeyMap.ofList (events.map fun event => (event, ()))).keys

end Tree

end Statechart
