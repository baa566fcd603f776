import Statechart.Node.Basic

/-!
# Building nodes step by step

A node under construction takes its parts in any order. A part given twice
counts as it was given last; a child whose id is taken already replaces the
earlier one, but is remembered and reported when the node is built.
-/

namespace Statechart

namespace Node

/-- **A node under construction.** -/
structure Builder where
  /-- The node so far. -/
  node : Node
  /-- The ids of the children whose id was taken already, in order. -/
  duplicates : List String

/-- A call to a node under construction. -/
inductive Builder.Call where
  /-- The child to enter by default. -/
  | initial (id : String)
  /-- One more child, under its own id. -/
  | state (child : Node)
  /-- Several more children, in order. -/
  | states (children : List Node)
  /-- Where an event leads. -/
  | on (event : String) (target : Target)
  /-- The entry action. -/
  | entry (action : String)
  /-- The exit action. -/
  | exit (action : String)

namespace Builder

/-- A node with an id and nothing else. -/
def new (id : String) : Builder := ⟨leaf id, []⟩

/-- One more child, under its own id. -/
def state (builder : Builder) (child : Node) : Builder :=
  { node := { builder.node with children := builder.node.children.insert child.id child }
    duplicates :=
      if builder.node.children.contains child.id then builder.duplicates ++ [child.id]
      else builder.duplicates }

/-- A call is carried out. -/
def perform (builder : Builder) : Call → Builder
  | .initial id => { builder with node := { builder.node with initial := some id } }
  | .state child => builder.state child
  | .states children => children.foldl state builder
  | .on event target =>
    { builder with
      node := { builder.node with transitions := builder.node.transitions.insert event target } }
  | .entry action => { builder with node := { builder.node with entry := some action } }
  | .exit action => { builder with node := { builder.node with exit := some action } }

/-- What is wrong with the choice of the initial child. -/
def initialFaults (node : Node) : List MachineError :=
  if node.isLeaf then []
  else match node.initial with
    | none => [.missingInitial node.id]
    | some id =>
      if (node.child? id).isNone then [.unknownState (node.id ++ "." ++ id)] else []

/-- What is wrong with a node under construction, as far as it shows on the node
itself: its id, children with one id, and the choice of the initial child. -/
def faults (builder : Builder) : List MachineError :=
  (if isStateId builder.node.id then [] else [.invalidStateId builder.node.id])
    ++ builder.duplicates.map .duplicateState
    ++ initialFaults builder.node

/-- **The finished node**, or everything that is wrong with it. -/
def build (builder : Builder) : Except MachineError Node :=
  MachineError.unlessFaulty builder.faults builder.node

end Builder

/-- The node that a sequence of calls builds. -/
def build (id : String) (calls : List Builder.Call) : Except MachineError Node :=
  (calls.foldl Builder.perform (.new id)).build

end Node

end Statechart
