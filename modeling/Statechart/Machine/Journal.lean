import Statechart.Machine.Basic

/-!
# What happens in a machine

A call to a machine may set off a great many things before it returns: dispatches
begin, steps are taken, actions run and send events, listeners are told. The
`Journal` of a call lists all of them in order, each with the dispatch it belongs
to and with where the machine was at that moment.
-/

namespace Statechart

/-- What happens in the course of a dispatch. -/
inductive Happening (L : Type) where
  /-- It begins, with a list of steps to take. -/
  | began (occasion : Occasion) (steps : List Step)
  /-- It takes a step. -/
  | took (step : Step)
  /-- It runs the action of a step. -/
  | ran (name : String) (scope : Scope)
  /-- An action that sent an event has its answer; `asked` is where the machine
  was when the event was sent. -/
  | answered (name event : String) (asked : Configuration) (reply : Except MachineError Path)
  /-- A listener is told of the leaf that became active, and of the event. -/
  | told (handle : Handle) (listener : L) (leaf : Path) (event : String)

/-- A happening, with its dispatch and with where the machine was at that
moment. -/
structure Journal.Entry (L : Type) where
  /-- Which dispatch it belongs to, counted from one. -/
  dispatch : Nat
  /-- What happened. -/
  happening : Happening L
  /-- Where the machine was. -/
  configuration : Configuration

/-- **All that happened during a call**, in order. -/
abbrev Journal (L : Type) : Type := List (Journal.Entry L)

end Statechart
