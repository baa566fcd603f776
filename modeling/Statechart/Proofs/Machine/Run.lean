import Statechart.Machine.Builder
import Statechart.Proofs.Machine.Course

/-!
# Runs of a machine

Whoever has a machine may call it as often as they like: start it, send events,
stop it, change its listeners and its context. A `Run` is a list of such calls
that have all returned, each with the machine before it, its answer, the machine
after it and its journal.

What is true of every run is proved by induction on the run. A call in it is
either carried out by a course, or does nothing but change what the machine
holds (`Episode.Occurs.cases`).
-/

namespace Statechart

variable {C L : Type}

namespace Machine

/-! ## Machines that have been made -/

/-- **A root and a start path make the machine that the definition of the two makes**, or have
the same thing wrong with them: either way the root is checked first, then the path is read,
and only then is it looked for. -/
theorem ofRoot_eq_ofDefinition (root : Node) (context : C) (registry : Registry (Action C))
    (startPath : Option String) :
    (ofRoot root context registry startPath : Except MachineError (Machine C L))
      = ofDefinition ⟨root, startPath⟩ context registry := by
  unfold ofRoot ofDefinition Definition.tree
  cases Tree.ofNode root with
  | error error => rfl
  | ok tree =>
    cases startPath with
    | none => rfl
    | some start =>
      cases hpath : Path.ofExactDotted start with
      | error error => simp only [bind, Except.bind, hpath]
      | ok path => simp only [bind, Except.bind, hpath]

/-- **A machine that has just been made**, in any of the ways there are. -/
inductive Built : Machine C L → Prop where
  /-- From a tree. -/
  | ofTree {tree : Tree} {context : C} {registry : Registry (Action C)} {machine : Machine C L}
    (ok : Machine.ofTree tree context registry = .ok machine) : Built machine
  /-- From a definition. -/
  | ofDefinition {definition : Definition} {context : C} {registry : Registry (Action C)}
    {machine : Machine C L}
    (ok : Machine.ofDefinition definition context registry = .ok machine) : Built machine
  /-- From a root node, and a path to start at if one is given. -/
  | ofRoot {root : Node} {context : C} {registry : Registry (Action C)}
    {startPath : Option String} {machine : Machine C L}
    (ok : Machine.ofRoot root context registry startPath = .ok machine) : Built machine
  /-- Step by step. -/
  | build {builder : Builder C} {machine : Machine C L} (ok : builder.build = .ok machine) :
    Built machine

namespace Built

variable {machine : Machine C L}

/-- In whatever way a machine is made, it is the machine of a tree. -/
theorem exists_ofTree (h : machine.Built) :
    ∃ tree context registry, Machine.ofTree tree context registry = .ok machine := by
  have hdefinition {definition : Definition} {context : C} {registry : Registry (Action C)}
      (ok : Machine.ofDefinition definition context registry = .ok machine) :
      ∃ tree context registry, Machine.ofTree tree context registry = .ok machine := by
    unfold Machine.ofDefinition at ok
    cases htree : definition.tree with
    | error error =>
      rw [htree] at ok
      exact nomatch ok
    | ok tree =>
      rw [htree] at ok
      exact ⟨tree, context, registry, ok⟩
  cases h with
  | ofTree ok => exact ⟨_, _, _, ok⟩
  | ofDefinition ok => exact hdefinition ok
  | ofRoot ok => exact hdefinition ((ofRoot_eq_ofDefinition ..).symm.trans ok)
  | build ok => exact hdefinition ((ofRoot_eq_ofDefinition ..).symm.trans ok)

/-- **A machine that has just been made has not done anything.** -/
theorem eq_new (h : machine.Built) : ∃ tree context bindings,
    machine = { tree, context, bindings } := by
  obtain ⟨tree, context, registry, ok⟩ := h.exists_ofTree
  unfold Machine.ofTree at ok
  cases hbindings : registry.bind tree with
  | error error =>
    rw [hbindings] at ok
    exact nomatch ok
  | ok bindings =>
    rw [hbindings] at ok
    exact ⟨tree, context, bindings, (Except.ok.inj ok).symm⟩

theorem status_eq (h : machine.Built) : machine.status = .stopped := by
  obtain ⟨_, _, _, rfl⟩ := h.eq_new
  rfl

theorem active_eq (h : machine.Built) : machine.active = none := by
  obtain ⟨_, _, _, rfl⟩ := h.eq_new
  rfl

end Built

end Machine

/-! ## Calls -/

/-- **What can be done to a machine** without anything happening in it. -/
inductive Change (C L : Type) where
  /-- It is stopped. -/
  | stop
  /-- It has one more listener. -/
  | subscribe (listener : L)
  /-- A subscription ends. -/
  | unsubscribe (handle : Handle)
  /-- Its context is replaced. -/
  | write (context : C)

namespace Machine

/-- The machine after a change. -/
def change (machine : Machine C L) : Change C L → Machine C L
  | .stop => machine.stop
  | .subscribe listener => (machine.subscribe listener).2
  | .unsubscribe handle => (machine.unsubscribe handle).2
  | .write context => { machine with context }

variable {machine : Machine C L} {change : Change C L}

@[simp] theorem active_change : (machine.change change).active = machine.active := by
  cases change <;> rfl

@[simp] theorem tree_change : (machine.change change).tree = machine.tree := by
  cases change <;> rfl

@[simp] theorem dispatches_change : (machine.change change).dispatches = machine.dispatches := by
  cases change <;> rfl

/-- A change starts no machine. -/
theorem status_change (h : machine.status = .stopped) :
    (machine.change change).status = .stopped := by
  cases change with
  | stop => rfl
  | _ => exact h

end Machine

/-- **A call to a machine.** -/
inductive Call (C L : Type) where
  /-- It is started. -/
  | start
  /-- An event is sent to it. -/
  | send (event : String)
  /-- It is changed. -/
  | change (change : Change C L)

/-- **A call that has returned.** -/
structure Episode (C L : Type) where
  /-- The call. -/
  call : Call C L
  /-- The machine that was called. -/
  before : Machine C L
  /-- The answer, where the call has one. -/
  answer : Option (Except MachineError Path)
  /-- The machine afterwards. -/
  after : Machine C L
  /-- All that happened. -/
  journal : Journal L

namespace Episode

/-- **A call returns**, under some limit on how deep sends nest. -/
inductive Occurs : Episode C L → Prop where
  | start {limit : Nat} {machine : Machine C L} {outcome : Machine.Outcome C L}
    (returns : machine.start limit = some outcome) :
    Occurs ⟨.start, machine, some outcome.result, outcome.machine, outcome.journal⟩
  | send {limit : Nat} {event : String} {machine : Machine C L} {outcome : Machine.Outcome C L}
    (returns : machine.send limit event = some outcome) :
    Occurs ⟨.send event, machine, some outcome.result, outcome.machine, outcome.journal⟩
  | change (change : Change C L) (machine : Machine C L) :
    Occurs ⟨.change change, machine, none, machine.change change, []⟩

/-- **The cases of a call that returns**: a start and a send have a course. -/
@[elab_as_elim]
theorem Occurs.byCourse {motive : (episode : Episode C L) → episode.Occurs → Prop}
    (start : ∀ {limit machine outcome} (returns : Machine.start limit machine = some outcome),
      Course .start machine outcome → motive _ (.start returns))
    (send : ∀ {limit event machine outcome}
      (returns : Machine.send limit machine event = some outcome),
      Course (.send event) machine outcome → motive _ (.send returns))
    (change : ∀ change machine, motive _ (.change change machine))
    {episode : Episode C L} (h : episode.Occurs) : motive episode h := by
  cases h with
  | start returns => exact start returns (course_start_iff.mpr ⟨_, returns⟩)
  | send returns => exact send returns (course_send_iff.mpr ⟨_, returns⟩)
  | change => exact change _ _

/-- A start that has a course returns. -/
theorem Occurs.of_start {machine : Machine C L} {outcome : Machine.Outcome C L}
    (h : Course .start machine outcome) :
    Occurs ⟨.start, machine, some outcome.result, outcome.machine, outcome.journal⟩ := by
  obtain ⟨limit, returns⟩ := course_start_iff.mp h
  exact .start returns

/-- A send that has a course returns. -/
theorem Occurs.of_send {event : String} {machine : Machine C L}
    {outcome : Machine.Outcome C L} (h : Course (.send event) machine outcome) :
    Occurs ⟨.send event, machine, some outcome.result, outcome.machine, outcome.journal⟩ := by
  obtain ⟨limit, returns⟩ := course_send_iff.mp h
  exact .send returns

/-- Whether the call is a start that succeeded. -/
def isStart (episode : Episode C L) : Bool :=
  match episode.call, episode.answer with
  | .start, some (.ok _) => true
  | _, _ => false

theorem isStart_of_ok {machine : Machine C L} {outcome : Machine.Outcome C L} {leaf : Path}
    (hok : outcome.result = .ok leaf) :
    isStart ⟨.start, machine, some outcome.result, outcome.machine, outcome.journal⟩ = true := by
  rw [hok]
  rfl

end Episode

/-! ## Runs -/

/-- **Calls that follow one another**, from one machine to another. -/
inductive Run (machine : Machine C L) : List (Episode C L) → Machine C L → Prop where
  /-- No calls. -/
  | nil : Run machine [] machine
  /-- One more call. -/
  | concat {episodes : List (Episode C L)} {episode : Episode C L}
    (run : Run machine episodes episode.before) (occurs : episode.Occurs) :
    Run machine (episodes ++ [episode]) episode.after

/-- **All that has happened since the last successful start.** -/
def sinceStart (episodes : List (Episode C L)) : Journal L :=
  episodes.foldl (fun journal episode =>
    if episode.isStart then episode.journal else journal ++ episode.journal) []

theorem sinceStart_concat (episodes : List (Episode C L)) (episode : Episode C L) :
    sinceStart (episodes ++ [episode])
      = if episode.isStart then episode.journal
        else sinceStart episodes ++ episode.journal := by
  unfold sinceStart
  rw [List.foldl_append]
  rfl

/-! ## A lamp

A machine to look at: a lamp that is off, bright or dim, and that fades as soon
as it is turned on, by an event that the entry action of `on` sends before any of
the two states below is entered. -/

namespace Lamp

/-- The states of the lamp. -/
def root : Node :=
  { Node.leaf "lamp" with
    initial := some "off"
    children := .ofList [
      ("off", { Node.leaf "off" with transitions := .ofList [("flip", .sibling "on")] }),
      ("on",
        { Node.leaf "on" with
          initial := some "bright"
          children := .ofList [("bright", .leaf "bright"), ("dim", .leaf "dim")]
          entry := some "settle"
          transitions := .ofList [
            ("fade", .absolute ⟨["on", "dim"]⟩), ("flip", .sibling "off")] })] }

/-- The action of the lamp: it fades. -/
def settle : Action Unit := fun _ => .send "fade" fun _ => .done

/-- The lamp. -/
def machine : Machine Unit String where
  tree := ⟨root, by rfl⟩
  context := ()
  bindings := ⟨[(⟨.entry, ⟨["on"]⟩⟩, ⟨"settle", settle⟩)]⟩

theorem built : machine.Built :=
  .ofRoot (show Machine.ofRoot root () (Registry.empty.register "settle" settle) none
    = .ok machine from rfl)

/-- The lamp once it has been started. -/
def off : Machine Unit String :=
  { machine with status := .running, active := some ⟨["off"]⟩, dispatches := 1 }

/-- The lamp once it has been turned on, and has faded. -/
def dim : Machine Unit String :=
  { machine with
    status := .running
    active := some ⟨["on", "dim"]⟩
    history := some ⟨⟨["on"]⟩, "fade"⟩
    dispatches := 3 }

/-- The lamp can be started and turned on. -/
theorem exists_run : ∃ episodes, Run machine episodes dim
    ∧ episodes.map Episode.call = [.start, .send "flip"] := by
  have hstart : (machine.start 1).map Machine.Outcome.machine = some off := rfl
  have hsend : (off.send 1 "flip").map Machine.Outcome.machine = some dim := rfl
  obtain ⟨started, hstarted, heq⟩ := Option.map_eq_some_iff.mp hstart
  obtain ⟨turned, hturned, heq'⟩ := Option.map_eq_some_iff.mp hsend
  rw [← heq] at hturned
  rw [← heq']
  exact ⟨_, .concat (.concat .nil (.start hstarted)) (.send hturned), rfl⟩

end Lamp

end Statechart
