import Statechart.Error
import Statechart.Path.Basic

/-!
# Actions

An action is run when a state is exited or entered. What it is told is its
`Scope`; what it does is a `Program`: it may read and write the context of the
machine and send events, as often as it likes and depending on everything it
has seen so far, and then it is done.
-/

namespace Statechart

/-- Whether a node is entered or exited. -/
inductive Step.Kind where
  | entry
  | exit
deriving DecidableEq, Repr, Inhabited

/-- **A step of a dispatch**: one node is entered or exited. -/
structure Step where
  /-- What happens to the node. -/
  kind : Step.Kind
  /-- The node it happens to. -/
  node : Path
deriving DecidableEq, Repr, Inhabited

namespace Step

/-- The name of a kind of step. -/
def Kind.text : Kind → String
  | .entry => "entry"
  | .exit => "exit"

/-- The active path once a step has been taken: the node that is entered, or the
parent of the node that is exited. -/
def arrival (step : Step) : Path :=
  match step.kind with
  | .entry => step.node
  | .exit => step.node.parentOrRoot

end Step

/-- **What a transition left**: the path that was active when an event came, and
the event. -/
structure Departure where
  /-- The path that was active. -/
  value : Path
  /-- The event. -/
  event : String
deriving DecidableEq, Repr, Inhabited

/-- **What a dispatch is about**: the same for all of its actions. -/
structure Occasion where
  /-- The event that is dispatched. -/
  event : String
  /-- The leaf that the dispatch leads to. -/
  leaf : Path
  /-- What it leaves; nothing when the machine starts. -/
  departure : Option Departure
deriving DecidableEq, Repr, Inhabited

/-- **What an action is told.** -/
structure Scope where
  /-- The step it runs for. -/
  step : Step
  /-- The dispatch that the step belongs to. -/
  occasion : Occasion
deriving DecidableEq, Repr, Inhabited

/-- **What an action does**, on a context of type `C`. -/
inductive Program (C : Type) where
  /-- Nothing more. -/
  | done
  /-- Goes on with the context as it is now. -/
  | read (next : C → Program C)
  /-- Replaces the context. -/
  | write (context : C) (next : Program C)
  /-- Sends an event to the machine, and goes on with the answer: the leaf that
  is active afterwards, or why nothing happened. -/
  | send (event : String) (next : Except MachineError Path → Program C)

instance {C : Type} : Inhabited (Program C) := ⟨.done⟩

/-- **An action**, on a context of type `C`. -/
abbrev Action (C : Type) : Type := Scope → Program C

end Statechart
