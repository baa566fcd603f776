import Mathlib.Data.List.Induction
import Statechart.Proofs.Action.Registry
import Statechart.Proofs.Machine.Run

/-!
# Ways to make a machine

A machine can be made from a root node, from a definition, or step by step. It makes no
difference: what a machine under construction has been told comes down to one list of
registrations and at most one start path (`Builder.Follows`), and whatever registry holds
these registrations gives the same machine, or the same error
(`Builder.build_agrees`). A root with a start path, for its part, gives what the definition
of the two gives (`ofRoot_eq_ofDefinition`).

The registrations of a registry that is handed over count where it is handed over, so
actions that are registered before are replaced, and those that are registered after
replace others.
-/

namespace Statechart

namespace Machine

namespace Builder

variable {C L : Type}

/-! ## Requests -/

/-- **A call to a machine under construction**, with how the registry was made that is
handed over. -/
inductive Request (C : Type) where
  /-- One more action. -/
  | action (name : String) (action : Action C)
  /-- All actions of a registry. -/
  | actions (recipe : Registry.Recipe (Action C))
  /-- The dotted path to start at. -/
  | startPath (path : String)

namespace Request

/-- The call itself. -/
def call : Request C → Call C
  | action name program => .action name program
  | actions recipe => .actions recipe.registry
  | startPath path => .startPath path

/-- What is registered. -/
def registrations : Request C → List (String × Action C)
  | action name program => [(name, program)]
  | actions recipe => recipe.registrations
  | startPath _ => []

/-- Where to start, if it is said. -/
def startPaths : Request C → List String
  | startPath path => [path]
  | _ => []

end Request

/-- **All registrations** of some requests, in order. -/
def registrations (requests : List (Request C)) : List (String × Action C) :=
  requests.flatMap Request.registrations

/-- **The start path** that was said last, if any. -/
def startPath? (requests : List (Request C)) : Option String :=
  (requests.flatMap Request.startPaths).getLast?

/-- The machine under construction after some requests. -/
def ofRequests (root : Node) (context : C) (requests : List (Request C)) : Builder C :=
  (requests.map Request.call).foldl perform (new root context)

/-! ## What a machine under construction holds -/

/-- **A machine under construction follows the requests** that were made. -/
structure Follows (builder : Builder C) (root : Node) (context : C)
    (requests : List (Request C)) : Prop where
  /-- The root is as it was. -/
  root : builder.root = root
  /-- So is the context. -/
  context : builder.context = context
  /-- The registry holds all registrations. -/
  registry : builder.registry.Holds (registrations requests)
  /-- The start path is the one that was said last. -/
  startPath : builder.startPath = startPath? requests

variable {builder : Builder C} {root : Node} {context : C} {requests : List (Request C)}

/-- **One more request is followed.** -/
theorem Follows.perform (h : builder.Follows root context requests) (request : Request C) :
    (builder.perform request.call).Follows root context (requests ++ [request]) := by
  have hregistrations : registrations (requests ++ [request])
      = registrations requests ++ request.registrations := by
    unfold registrations
    rw [List.flatMap_append, List.flatMap_singleton]
  have hstart : startPath? (requests ++ [request])
      = request.startPaths.getLast?.or (startPath? requests) := by
    unfold startPath?
    rw [List.flatMap_append, List.flatMap_singleton, List.getLast?_append]
  cases request with
  | action name action =>
    exact ⟨h.root, h.context, hregistrations ▸ h.registry.register name action,
      h.startPath.trans hstart.symm⟩
  | actions recipe =>
    exact ⟨h.root, h.context, hregistrations ▸ h.registry.merge recipe.holds,
      h.startPath.trans hstart.symm⟩
  | startPath path =>
    refine ⟨h.root, h.context, ?_, hstart.symm⟩
    rw [hregistrations]
    exact (List.append_nil (registrations requests)).symm ▸ h.registry

/-- **All requests are followed.** -/
theorem follows_ofRequests (root : Node) (context : C) (requests : List (Request C)) :
    (ofRequests root context requests).Follows root context requests := by
  unfold ofRequests
  induction requests using List.reverseRecOn with
  | nil => exact ⟨rfl, rfl, .empty, rfl⟩
  | append_singleton requests request ih =>
    rw [List.map_append, List.foldl_append]
    exact ih.perform request

/-! ## One machine -/

/-- **All ways to make a machine agree.** Whatever is asked for step by step, the machine
is the one that is made at once, from the root or from the definition with the start path
that was said last, and with any registry that holds the registrations in their order. The
first fault is the same as well: that of the definition if it has no tree, and otherwise
that of the actions. Such a registry has the names that were registered at some point and
counts each of them once. However a registry is made, it holds the registrations that it is
made of, and so the same is true of it. -/
theorem build_agrees (root : Node) (context : C) (requests : List (Request C))
    {registry : Registry (Action C)} (holds : registry.Holds (registrations requests)) :
    (ofRequests root context requests).registry = registry
      ∧ ((ofRequests root context requests).build : Except MachineError (Machine C L))
        = Machine.ofRoot root context registry (startPath? requests)
      ∧ ((ofRequests root context requests).build : Except MachineError (Machine C L))
        = Machine.ofDefinition ⟨root, startPath? requests⟩ context registry
      ∧ (∀ tree, Definition.tree ⟨root, startPath? requests⟩ = .ok tree →
        ((ofRequests root context requests).build : Except MachineError (Machine C L))
          = Machine.ofTree tree context registry)
      ∧ (∀ error, Definition.tree ⟨root, startPath? requests⟩ = .error error →
        ((ofRequests root context requests).build : Except MachineError (Machine C L))
          = .error error)
      ∧ (∀ name, registry.contains name = true
        ↔ name ∈ (registrations requests).map Prod.fst)
      ∧ registry.size = ((registrations requests).map Prod.fst).dedup.length
      ∧ ∀ recipe : Registry.Recipe (Action C), recipe.registry.Holds recipe.registrations
        ∧ (∀ name, recipe.registry.contains name = true
          ↔ name ∈ recipe.registrations.map Prod.fst)
        ∧ recipe.registry.size = (recipe.registrations.map Prod.fst).dedup.length := by
  have hfollows := follows_ofRequests root context requests
  have hregistry := hfollows.registry.eq holds
  have hbuild : ((ofRequests root context requests).build : Except MachineError (Machine C L))
      = Machine.ofRoot root context registry (startPath? requests) := by
    unfold build
    rw [hfollows.root, hfollows.context, hregistry, hfollows.startPath]
  have hdefinition : ((ofRequests root context requests).build : Except MachineError (Machine C L))
      = Machine.ofDefinition ⟨root, startPath? requests⟩ context registry :=
    hbuild.trans (ofRoot_eq_ofDefinition root context registry _)
  refine ⟨hregistry, hbuild, hdefinition, fun tree hok => ?_, fun error herror => ?_,
    fun name => holds.contains_iff, holds.size_eq,
    fun recipe => ⟨recipe.holds, fun name => recipe.holds.contains_iff, recipe.holds.size_eq⟩⟩
  · rw [hdefinition, Machine.ofDefinition, hok]
    rfl
  · rw [hdefinition, Machine.ofDefinition, herror]
    rfl

/-- The lamp, step by step: one action is replaced by one that does nothing, and that one by
the one that fades, before all of it is handed over. Where to start is said twice. -/
def lampRequests : List (Request Unit) := [
  .action "settle" fun _ => .send "flip" fun _ => .done,
  .startPath "off",
  .actions (.merge (.register .empty "settle" fun _ => .done)
    (.register .empty "settle" Lamp.settle)),
  .startPath "on"]

/-- The states of the lamp, if it is on at first. -/
def onFirst : Tree := ⟨{ Lamp.root with initial := some "on" }, by rfl⟩

/-- It has one action, and is the lamp but for its states: it starts bright, and the lamp starts
off. Nothing is made of the same requests and one more, to start in the attic, where there is
no state, or at a path with an empty piece. -/
theorem build_agrees_lamp :
    ((ofRequests Lamp.root () lampRequests).build : Except MachineError (Machine Unit String))
        = .ok { Lamp.machine with tree := onFirst }
      ∧ onFirst.leafOf .root = .ok ⟨["on", "bright"]⟩
      ∧ Lamp.machine.tree.leafOf .root = .ok ⟨["off"]⟩
      ∧ ((ofRequests Lamp.root () (lampRequests ++ [.startPath "attic"])).build
        : Except MachineError (Machine Unit String)) = .error (.unknownState "attic")
      ∧ ((ofRequests Lamp.root () (lampRequests ++ [.startPath "on..dim"])).build
        : Except MachineError (Machine Unit String)) = .error (.unknownState "on..dim")
      ∧ (Registry.empty.register "settle" Lamp.settle).size = 1 := by
  have holds : (Registry.empty.register "settle" Lamp.settle).Holds
      (registrations lampRequests) := by
    intro name
    by_cases hname : name = "settle"
    · subst hname
      rfl
    · have hne : (name == "settle") = false := beq_false_of_ne hname
      show (KeyMap.insert .nil "settle" Lamp.settle).get? name
        = List.lookup name [("settle", Lamp.settle), ("settle", _), ("settle", _)]
      simp [KeyMap.get?_insert, List.lookup_cons, hname, hne]
  -- where to start registers nothing
  have hattic : (Registry.empty.register "settle" Lamp.settle).Holds
      (registrations (lampRequests ++ [.startPath "attic"])) := holds
  have hpiece : (Registry.empty.register "settle" Lamp.settle).Holds
      (registrations (lampRequests ++ [.startPath "on..dim"])) := holds
  obtain ⟨-, hbuild, -, -, -, -, hsize, -⟩ := build_agrees (L := String) Lamp.root () _ holds
  obtain ⟨-, -, -, -, hunknown, -⟩ := build_agrees (L := String) Lamp.root () _ hattic
  obtain ⟨-, -, -, -, hmalformed, -⟩ := build_agrees (L := String) Lamp.root () _ hpiece
  exact ⟨hbuild.trans rfl, rfl, rfl, hunknown _ rfl, hmalformed _ rfl, hsize.trans rfl⟩

end Builder

end Machine

end Statechart
