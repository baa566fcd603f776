import Statechart.Action.Program
import Statechart.Action.Registry
import Statechart.Tree.Walk

/-!
# Binding actions to nodes

Nodes name their actions; a registry knows what the names stand for.
`Registry.bind` looks up every name that a tree declares and makes the table of
what is to run at which step, or reports each name that is not registered, once
for every declaration.
-/

namespace Statechart

/-- The actions that the node at a path declares: the entry action first. -/
def Node.declarations (path : Path) (node : Node) : List (Step × String) :=
  (node.entry.map fun name => (⟨.entry, path⟩, name)).toList
    ++ (node.exit.map fun name => (⟨.exit, path⟩, name)).toList

/-- The actions that the nodes of a tree declare. -/
def Tree.declarations (tree : Tree) : List (Step × String) :=
  tree.walk.flatMap fun (path, node) => node.declarations path

/-- An action with the name it is registered under. -/
structure Bound (α : Type) where
  /-- Its name. -/
  name : String
  /-- The action itself. -/
  action : α

/-- **What is to run at which step.** -/
structure Bindings (α : Type) where
  /-- The steps with an action. -/
  table : List (Step × Bound α)

namespace Bindings

variable {α : Type}

/-- The action that runs at a step. -/
def get? (bindings : Bindings α) (step : Step) : Option (Bound α) := bindings.table.lookup step

end Bindings

namespace Registry

variable {α : Type}

/-- The declarations whose names are not registered. -/
def unknownActions (registry : Registry α) (tree : Tree) : List MachineError :=
  (tree.declarations.filter fun (_, name) => !registry.contains name).map
    fun (step, name) => .unknownAction name step.node.label

/-- **The actions of a tree at their steps**, or every declaration that names an
action in vain. -/
def bind (registry : Registry α) (tree : Tree) : Except MachineError (Bindings α) :=
  MachineError.unlessFaulty (registry.unknownActions tree)
    ⟨tree.declarations.filterMap fun (step, name) =>
      (registry.get? name).map fun action => (step, ⟨name, action⟩)⟩

end Registry

end Statechart
