import Statechart.Machine.Journal

/-!
# Running a machine

Starting a machine and sending it an event that it handles begin a *dispatch*:
nodes are exited and entered one by one, each step is followed by the action
bound to it, and at the end the listeners are told. After each step the active
path is where the step arrived, so an action sees a node that is being exited as
inactive already, and a node that is being entered as active already.

An action may send events itself. If one is handled, a dispatch of its own is
carried out from the path that is active at that moment, and the dispatch around
it goes no further than the action that sent the event: it takes no more steps
and tells no listeners, and its result is where the machine was left. That a
dispatch was overtaken shows in the number of dispatches begun.

Every call gives a `Journal` of all that happened during it. Sends may nest
without end, so a call has a limit on how deep they nest; a call that would go
deeper has no outcome.
-/

namespace Statechart

namespace Transition

/-- The steps of a transition: all exits, then all entries. -/
def steps (transition : Transition) : List Step :=
  transition.exits.map (⟨.exit, ·⟩) ++ transition.entries.map (⟨.entry, ·⟩)

end Transition

/-- The steps of a start: the root is entered, and then every node on the way to
the leaf. -/
def Path.startSteps (leaf : Path) : List Step := (.root :: leaf.lineage).map (⟨.entry, ·⟩)

/-- The event that actions and listeners are given when a machine starts. -/
def startEvent : String := "init"

namespace Machine

variable {C L : Type}

/-- **What a call comes to.** -/
structure Outcome (C L : Type) where
  /-- The leaf that is active afterwards, or why nothing happened. -/
  result : Except MachineError Path
  /-- The machine afterwards. -/
  machine : Machine C L
  /-- All that happened. -/
  journal : Journal L

/-- A way to send events; no outcome where sends nest too deep. -/
abbrev Sender (C L : Type) : Type := Machine C L → String → Option (Outcome C L)

/-- An entry about the machine as it is. -/
def note (machine : Machine C L) (dispatch : Nat) (happening : Happening L) : Journal.Entry L :=
  ⟨dispatch, happening, machine.toConfiguration⟩

/-- A call that failed: nothing has happened. -/
def refuse (machine : Machine C L) (error : MachineError) : Outcome C L :=
  ⟨.error error, machine, []⟩

/-- The listeners are told of a leaf and an event, each in turn. -/
def tell (machine : Machine C L) (dispatch : Nat) (leaf : Path) (event : String) : Journal L :=
  machine.subscribers.listeners.map fun (handle, listener) =>
    machine.note dispatch (.told handle listener leaf event)

/-- What remains of an action is carried out, on behalf of a dispatch. -/
def runProgram (send : Sender C L) (dispatch : Nat) (name : String) :
    Program C → Machine C L → Option (Machine C L × Journal L)
  | .done, machine => some (machine, [])
  | .read next, machine => runProgram send dispatch name (next machine.context) machine
  | .write context next, machine => runProgram send dispatch name next { machine with context }
  | .send event next, machine => do
    let reply ← send machine event
    let answered := reply.machine.note dispatch
      (.answered name event machine.toConfiguration reply.result)
    let (machine, journal) ←
      runProgram send dispatch name (next reply.result) reply.machine
    return (machine, reply.journal ++ answered :: journal)

/-- A step is taken: the active path moves, and the action bound to the step
runs. -/
def takeStep (send : Sender C L) (dispatch : Nat) (occasion : Occasion) (step : Step)
    (machine : Machine C L) : Option (Machine C L × Journal L) :=
  let machine := { machine with active := some step.arrival }
  let took := machine.note dispatch (.took step)
  match machine.bindings.get? step with
  | none => some (machine, [took])
  | some bound => do
    let scope := ⟨step, occasion⟩
    let ran := machine.note dispatch (.ran bound.name scope)
    let (machine, journal) ←
      runProgram send dispatch bound.name (bound.action scope) machine
    return (machine, took :: ran :: journal)

/-- The result of a dispatch that another one has overtaken: where the machine
was left. -/
def leftAt (machine : Machine C L) : Except MachineError Path :=
  match machine.active with
  | some path => .ok path
  | none => .error .notRunning

/-- The remaining steps of a dispatch are taken. It stops after a step during
which another dispatch began; after the last step the leaf is active and the
listeners are told. -/
def takeSteps (send : Sender C L) (dispatch : Nat) (occasion : Occasion) :
    List Step → Machine C L → Option (Outcome C L)
  | [], machine =>
    let machine := { machine with active := some occasion.leaf }
    some ⟨.ok occasion.leaf, machine, machine.tell dispatch occasion.leaf occasion.event⟩
  | step :: rest, machine => do
    let (machine, journal) ← takeStep send dispatch occasion step machine
    if machine.dispatches ≠ dispatch then return ⟨machine.leftAt, machine, journal⟩
    let outcome ← takeSteps send dispatch occasion rest machine
    return { outcome with journal := journal ++ outcome.journal }

/-- A dispatch is carried out. -/
def dispatch (send : Sender C L) (occasion : Occasion) (steps : List Step)
    (machine : Machine C L) : Option (Outcome C L) := do
  let number := machine.dispatches + 1
  let machine :=
    { machine with
      status := .running
      history := occasion.departure
      dispatches := number }
  let began := machine.note number (.began occasion steps)
  let outcome ← takeSteps send number occasion steps machine
  return { outcome with journal := began :: outcome.journal }

/-- Sends an event, where `inner` carries out what actions send. -/
def sendWith (inner : Sender C L) (machine : Machine C L) (event : String) :
    Option (Outcome C L) :=
  match machine.status, machine.active with
  | .running, some current =>
    match machine.tree.transition current event with
    | .error error => some (machine.refuse error)
    | .ok transition =>
      machine.dispatch inner ⟨event, transition.leaf, some ⟨current, event⟩⟩ transition.steps
  | _, _ => some (machine.refuse .notRunning)

/-- What actions send, where sends may nest no deeper than the limit. -/
def sendNested : Nat → Sender C L
  | 0 => fun _ _ => none
  | limit + 1 => sendWith (sendNested limit)

/-- **Sends an event.** Actions may send further events, nested no deeper than
the limit. -/
def send (limit : Nat) (machine : Machine C L) (event : String) : Option (Outcome C L) :=
  sendWith (sendNested limit) machine event

/-- **Starts a machine** in the default leaf of its tree. Actions may send events,
nested no deeper than the limit. -/
def start (limit : Nat) (machine : Machine C L) : Option (Outcome C L) :=
  match machine.status with
  | .running => some (machine.refuse .alreadyRunning)
  | .stopped =>
    match machine.tree.leafOf .root with
    | .error error => some (machine.refuse error)
    | .ok leaf => machine.dispatch (sendNested limit) ⟨startEvent, leaf, none⟩ leaf.startSteps

/-- **Stops a machine.** No actions run; the active path can still be read. -/
def stop (machine : Machine C L) : Machine C L := { machine with status := .stopped }

end Machine

end Statechart
