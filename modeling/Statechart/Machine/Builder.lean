import Statechart.Machine.Basic

/-!
# Building machines step by step

A machine under construction has its root and its context from the outset, and
takes actions and a start path in any order.
-/

namespace Statechart

namespace Machine

/-- **A machine under construction.** -/
structure Builder (C : Type) where
  /-- The root node. -/
  root : Node
  /-- What the actions will work on. -/
  context : C
  /-- The actions so far. -/
  registry : Registry (Action C)
  /-- The dotted path to start at. -/
  startPath : Option String

/-- A call to a machine under construction. -/
inductive Builder.Call (C : Type) where
  /-- One more action. -/
  | action (name : String) (action : Action C)
  /-- All actions of a registry. -/
  | actions (registry : Registry (Action C))
  /-- The dotted path to start at. -/
  | startPath (path : String)

namespace Builder

variable {C L : Type}

/-- A root and a context, without actions. -/
def new (root : Node) (context : C) : Builder C := ⟨root, context, .empty, none⟩

/-- A call is carried out. -/
def perform (builder : Builder C) : Call C → Builder C
  | .action name action => { builder with registry := builder.registry.register name action }
  | .actions registry => { builder with registry := builder.registry.merge registry }
  | .startPath path => { builder with startPath := some path }

/-- **The finished machine**, or what is wrong with it. -/
def build (builder : Builder C) : Except MachineError (Machine C L) :=
  Machine.ofRoot builder.root builder.context builder.registry builder.startPath

end Builder

end Machine

end Statechart
