import Statechart.Action.Binding
import Statechart.Definition
import Statechart.Machine.Subscribers
import Statechart.Transition

/-!
# Machines

A machine is a state tree with what it needs to run: the actions bound to the
steps of the tree, a context for them to work on, the listeners, and the
`Configuration` – whether it is running, which path is active, and what the
latest transition left.

Everything that can be wrong with a definition shows when the machine is made.
-/

namespace Statechart

/-- Whether a machine takes events. -/
inductive Status where
  | stopped
  | running
deriving DecidableEq, Repr, Inhabited

/-- **Where a machine is.** -/
structure Configuration where
  /-- Whether it takes events. -/
  status : Status := .stopped
  /-- The active path; none before the first start. -/
  active : Option Path := none
  /-- What the latest transition since the start left. -/
  history : Option Departure := none
deriving DecidableEq, Repr, Inhabited

/-- **A statechart at work**, with a context of type `C` and listeners of type
`L`. -/
structure Machine (C L : Type) extends Configuration where
  /-- The states. -/
  tree : Tree
  /-- The actions at their steps. -/
  bindings : Bindings (Action C)
  /-- What the actions work on. -/
  context : C
  /-- Who is told of transitions. -/
  subscribers : Subscribers L := .empty
  /-- How many dispatches have begun. The count has no upper end: it is taken not to wrap
  around. -/
  dispatches : Nat := 0

namespace Machine

variable {C L : Type}

/-! ## Making a machine -/

/-- **The machine of a tree**, stopped, with its actions taken from a
registry. -/
def ofTree (tree : Tree) (context : C) (registry : Registry (Action C)) :
    Except MachineError (Machine C L) := do
  return { tree, context, bindings := ← registry.bind tree }

/-- The machine of a definition. -/
def ofDefinition (definition : Definition) (context : C) (registry : Registry (Action C)) :
    Except MachineError (Machine C L) := do
  ofTree (← definition.tree) context registry

/-- The machine of a root node that starts at a dotted path, if one is given. -/
def ofRoot (root : Node) (context : C) (registry : Registry (Action C))
    (startPath : Option String) : Except MachineError (Machine C L) := do
  let tree ← Tree.ofNode root
  let tree ← match startPath with
    | some start => tree.startingAt (← Path.ofExactDotted start)
    | none => pure tree
  ofTree tree context registry

/-! ## Listeners -/

/-- One more listener, and the handle of its subscription. -/
def subscribe (machine : Machine C L) (listener : L) : Handle × Machine C L :=
  let (handle, subscribers) := machine.subscribers.subscribe listener
  (handle, { machine with subscribers })

/-- A subscription ends. Says whether it had not ended before. -/
def unsubscribe (machine : Machine C L) (handle : Handle) : Bool × Machine C L :=
  let (ended, subscribers) := machine.subscribers.unsubscribe handle
  (ended, { machine with subscribers })

/-! ## Looking at a machine -/

/-- Whether the active path lies at or below a dotted path. -/
def isWithin (machine : Machine C L) (outer : String) : Bool :=
  machine.active.any (·.isWithin outer)

/-- The events that the active path handles, in ascending order. -/
def nextEvents (machine : Machine C L) : List String :=
  (machine.active.map machine.tree.nextEvents).getD []

/-- Whether an event would be handled now. -/
def can (machine : Machine C L) (event : String) : Bool :=
  machine.status == .running
    && machine.active.any fun path => (machine.tree.handler? path event).isSome

end Machine

end Statechart
