/-!
# What can go wrong with a machine

A `MachineError` names the cause of a failure and what it concerns; its wording
is `MachineError.message`. A definition may have many faults at once: they are
collected as a list, and `MachineError.ofFaults` makes one error of the list,
of which `MachineError.errors` gives the single faults back.
-/

namespace Statechart

/-- **Why building or driving a machine failed.** -/
inductive MachineError where
  /-- No state lies at the path. -/
  | unknownState (path : String)
  /-- The state has children but does not say which of them it enters. -/
  | missingInitial (state : String)
  /-- Neither the state nor a state around it handles the event. -/
  | noMatchingTransition (event state : String)
  /-- The state uses an action that nobody registered. -/
  | unknownAction (action state : String)
  /-- The text cannot be the id of a state at this place. -/
  | invalidStateId (id : String)
  /-- The state has a sibling with its own id. -/
  | duplicateState (id : String)
  /-- The text does not define a machine. -/
  | definition (reason : String)
  /-- Several faults at once. -/
  | invalidConfig (errors : List MachineError)
  /-- The machine has to be started first. -/
  | notRunning
  /-- The machine has to be stopped first. -/
  | alreadyRunning

instance : Inhabited MachineError := ⟨.notRunning⟩

namespace MachineError

mutual

/-- The wording of an error. -/
def message : MachineError → String
  | unknownState path => "Unknown state '" ++ path ++ "'"
  | missingInitial state => "State '" ++ state ++ "' has children but no usable initial child"
  | noMatchingTransition event state =>
    "No transition for event '" ++ event ++ "' from state '" ++ state ++ "'"
  | unknownAction action state =>
    "Action '" ++ action ++ "' used by state '" ++ state ++ "' is not registered"
  | invalidStateId id =>
    "Invalid state id '" ++ id ++ "': ids must be non-empty and must not contain '.'"
  | duplicateState id => "State '" ++ id ++ "' is declared more than once under the same parent"
  | definition reason => "Machine definition could not be parsed: " ++ reason
  | invalidConfig errors =>
    "Machine configuration has " ++ errors.length.repr ++ " errors: "
      ++ "; ".intercalate (messages errors)
  | notRunning => "Interpreter is not running. Call .start() first"
  | alreadyRunning => "Interpreter is already running"

/-- The wordings of several errors. -/
def messages : List MachineError → List String
  | [] => []
  | error :: rest => error.message :: messages rest

end

/-- Whether the machine can go on as if nothing had happened. -/
def isRecoverable : MachineError → Bool
  | noMatchingTransition _ _ => true
  | _ => false

mutual

/-- **The single faults in an error**, in order: those of its members for
`invalidConfig`, at any depth, and the error itself for every other cause. -/
def errors : MachineError → List MachineError
  | invalidConfig members => allErrors members
  | unknownState path => [unknownState path]
  | missingInitial state => [missingInitial state]
  | noMatchingTransition event state => [noMatchingTransition event state]
  | unknownAction action state => [unknownAction action state]
  | invalidStateId id => [invalidStateId id]
  | duplicateState id => [duplicateState id]
  | definition reason => [definition reason]
  | notRunning => [notRunning]
  | alreadyRunning => [alreadyRunning]

/-- The single faults in several errors. -/
def allErrors : List MachineError → List MachineError
  | [] => []
  | error :: rest => error.errors ++ allErrors rest

end

/-- One error for a list of faults: a fault that is alone stands for itself. -/
def ofFaults : List MachineError → MachineError
  | [fault] => fault
  | faults => invalidConfig faults

/-- The value, unless there are faults. -/
def unlessFaulty {α : Type} (faults : List MachineError) (value : α) : Except MachineError α :=
  if faults.isEmpty then .ok value else .error (ofFaults faults)

/-! ## Equality -/

mutual

/-- Whether two errors have the same cause and concern the same things. -/
def same : MachineError → MachineError → Bool
  | unknownState path, unknownState path' => path == path'
  | missingInitial state, missingInitial state' => state == state'
  | noMatchingTransition event state, noMatchingTransition event' state' =>
    event == event' && state == state'
  | unknownAction action state, unknownAction action' state' =>
    action == action' && state == state'
  | invalidStateId id, invalidStateId id' => id == id'
  | duplicateState id, duplicateState id' => id == id'
  | definition reason, definition reason' => reason == reason'
  | invalidConfig errors, invalidConfig errors' => sameAll errors errors'
  | notRunning, notRunning => true
  | alreadyRunning, alreadyRunning => true
  | _, _ => false

/-- Whether two lists of errors are the same one by one. -/
def sameAll : List MachineError → List MachineError → Bool
  | [], [] => true
  | error :: rest, error' :: rest' => error.same error' && sameAll rest rest'
  | _, _ => false

end

mutual

theorem same_iff_eq : (left right : MachineError) → (left.same right = true ↔ left = right)
  | invalidConfig errors, right => by
    cases right <;> simp [same, sameAll_iff_eq errors]
  | unknownState _, right | missingInitial _, right | noMatchingTransition _ _, right
  | unknownAction _ _, right | invalidStateId _, right | duplicateState _, right
  | definition _, right | notRunning, right | alreadyRunning, right => by
    cases right <;> simp [same]

theorem sameAll_iff_eq :
    (left right : List MachineError) → (sameAll left right = true ↔ left = right)
  | [], right => by cases right <;> simp [sameAll]
  | error :: rest, right => by
    cases right <;> simp [sameAll, same_iff_eq error, sameAll_iff_eq rest]

end

instance : DecidableEq MachineError := fun left right =>
  decidable_of_iff _ (same_iff_eq left right)

end MachineError

end Statechart
