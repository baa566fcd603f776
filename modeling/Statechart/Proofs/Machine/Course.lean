import Statechart.Machine.Dispatch

/-!
# The course of a call

A call to a machine is carried out by functions that call one another: what an
action sends begins a dispatch, whose steps run actions. `Course` says the same
in rules, one for each thing that can happen next, and without a limit on how
deep sends nest. What is true of every course is proved by one induction, with a
case for each rule.

The rules and the functions agree: a call has a course exactly if it returns
under some limit (`course_send_iff`, `course_start_iff`). A course of a send and
its return under every larger limit are the same thing, so the limit decides only
whether there is an outcome, not which one.
-/

namespace Statechart

variable {C L : Type}

/-- **What a machine is doing.** -/
inductive Activity (C : Type) where
  /-- It carries out what remains of an action, on behalf of a dispatch. -/
  | act (dispatch : Nat) (name : String) (program : Program C)
  /-- It takes the remaining steps of the dispatch that began last. -/
  | walk (occasion : Occasion) (steps : List Step)
  /-- An event is sent to it. -/
  | send (event : String)
  /-- It is started. -/
  | start

namespace Machine

/-- The machine with another active path. -/
def movedTo (machine : Machine C L) (path : Path) : Machine C L :=
  { machine with active := some path }

/-- The machine once a dispatch has begun. -/
def begun (machine : Machine C L) (occasion : Occasion) : Machine C L :=
  { machine with
    status := .running
    history := occasion.departure
    dispatches := machine.dispatches + 1 }

/-- An outcome, with what happened before. -/
def Outcome.after (outcome : Outcome C L) (journal : Journal L) : Outcome C L :=
  { outcome with journal := journal ++ outcome.journal }

/-- That a dispatch has begun, as its journal has it. -/
def beginning (machine : Machine C L) (occasion : Occasion) (steps : List Step) :
    Journal.Entry L :=
  (machine.begun occasion).note (machine.dispatches + 1) (.began occasion steps)

/-- That a step has been taken, as its journal has it. -/
def stepping (machine : Machine C L) (step : Step) : Journal.Entry L :=
  (machine.movedTo step.arrival).note machine.dispatches (.took step)

/-- That the action of a step runs, as its journal has it. -/
def acting (machine : Machine C L) (name : String) (scope : Scope) : Journal.Entry L :=
  (machine.movedTo scope.step.arrival).note machine.dispatches (.ran name scope)

/-- That an action has the answer to an event that it sent, as its journal has
it. -/
def answering (asked : Machine C L) (dispatch : Nat) (name event : String)
    (reply : Outcome C L) : Journal.Entry L :=
  reply.machine.note dispatch (.answered name event asked.toConfiguration reply.result)

end Machine

open Machine (Outcome)

/-- **The course that an activity takes**: from a machine to an outcome. The
result of an action is where it leaves the machine. -/
inductive Course : Activity C → Machine C L → Outcome C L → Prop where
  /-- An action is done. -/
  | done {dispatch : Nat} {name : String} {machine : Machine C L} :
    Course (.act dispatch name .done) machine ⟨machine.leftAt, machine, []⟩
  /-- It reads the context. -/
  | read {dispatch : Nat} {name : String} {next : C → Program C} {machine : Machine C L}
    {outcome : Outcome C L}
    (rest : Course (.act dispatch name (next machine.context)) machine outcome) :
    Course (.act dispatch name (.read next)) machine outcome
  /-- It replaces the context. -/
  | write {dispatch : Nat} {name : String} {context : C} {next : Program C}
    {machine : Machine C L} {outcome : Outcome C L}
    (rest : Course (.act dispatch name next) { machine with context } outcome) :
    Course (.act dispatch name (.write context next)) machine outcome
  /-- It sends an event, and goes on with the answer. -/
  | ask {dispatch : Nat} {name event : String} {next : Except MachineError Path → Program C}
    {machine : Machine C L} {reply outcome : Outcome C L}
    (asked : Course (.send event) machine reply)
    (rest : Course (.act dispatch name (next reply.result)) reply.machine outcome) :
    Course (.act dispatch name (.send event next)) machine
      (outcome.after (reply.journal ++ [machine.answering dispatch name event reply]))
  /-- A dispatch has taken all its steps. -/
  | arrive {occasion : Occasion} {machine : Machine C L} :
    Course (.walk occasion []) machine
      ⟨.ok occasion.leaf, machine.movedTo occasion.leaf,
        (machine.movedTo occasion.leaf).tell machine.dispatches occasion.leaf occasion.event⟩
  /-- It takes a step without an action. -/
  | pass {occasion : Occasion} {step : Step} {steps : List Step} {machine : Machine C L}
    {outcome : Outcome C L} (unbound : machine.bindings.get? step = none)
    (rest : Course (.walk occasion steps) (machine.movedTo step.arrival) outcome) :
    Course (.walk occasion (step :: steps)) machine (outcome.after [machine.stepping step])
  /-- It takes a step with an action, and goes on. -/
  | perform {occasion : Occasion} {step : Step} {steps : List Step} {bound : Bound (Action C)}
    {machine : Machine C L} {acted outcome : Outcome C L}
    (isBound : machine.bindings.get? step = some bound)
    (action : Course (.act machine.dispatches bound.name (bound.action ⟨step, occasion⟩))
      (machine.movedTo step.arrival) acted)
    (same : acted.machine.dispatches = machine.dispatches)
    (rest : Course (.walk occasion steps) acted.machine outcome) :
    Course (.walk occasion (step :: steps)) machine
      (outcome.after (machine.stepping step :: machine.acting bound.name ⟨step, occasion⟩
        :: acted.journal))
  /-- It takes a step with an action that begins another dispatch, and is over. -/
  | overtaken {occasion : Occasion} {step : Step} {steps : List Step}
    {bound : Bound (Action C)} {machine : Machine C L} {acted : Outcome C L}
    (isBound : machine.bindings.get? step = some bound)
    (action : Course (.act machine.dispatches bound.name (bound.action ⟨step, occasion⟩))
      (machine.movedTo step.arrival) acted)
    (other : acted.machine.dispatches ≠ machine.dispatches) :
    Course (.walk occasion (step :: steps)) machine
      (acted.after [machine.stepping step, machine.acting bound.name ⟨step, occasion⟩])
  /-- An event is sent to a machine that is not running, or not anywhere. -/
  | unready {event : String} {machine : Machine C L}
    (unready : machine.status = .stopped ∨ machine.active = none) :
    Course (.send event) machine (machine.refuse .notRunning)
  /-- An event does nothing. -/
  | unhandled {event : String} {current : Path} {error : MachineError} {machine : Machine C L}
    (running : machine.status = .running) (active : machine.active = some current)
    (refused : machine.tree.transition current event = .error error) :
    Course (.send event) machine (machine.refuse error)
  /-- An event begins a dispatch. -/
  | dispatch {event : String} {current : Path} {transition : Transition} {machine : Machine C L}
    {outcome : Outcome C L}
    (running : machine.status = .running) (active : machine.active = some current)
    (ok : machine.tree.transition current event = .ok transition)
    (walk : Course (.walk ⟨event, transition.leaf, some ⟨current, event⟩⟩ transition.steps)
      (machine.begun ⟨event, transition.leaf, some ⟨current, event⟩⟩) outcome) :
    Course (.send event) machine
      (outcome.after
        [machine.beginning ⟨event, transition.leaf, some ⟨current, event⟩⟩ transition.steps])
  /-- A machine that is running is started. -/
  | alreadyRunning {machine : Machine C L} (running : machine.status = .running) :
    Course .start machine (machine.refuse .alreadyRunning)
  /-- A machine without a default leaf is started. -/
  | leafless {error : MachineError} {machine : Machine C L} (stopped : machine.status = .stopped)
    (refused : machine.tree.leafOf .root = .error error) :
    Course .start machine (machine.refuse error)
  /-- A start begins a dispatch. -/
  | start {leaf : Path} {machine : Machine C L} {outcome : Outcome C L}
    (stopped : machine.status = .stopped) (ok : machine.tree.leafOf .root = .ok leaf)
    (walk : Course (.walk ⟨startEvent, leaf, none⟩ leaf.startSteps)
      (machine.begun ⟨startEvent, leaf, none⟩) outcome) :
    Course .start machine
      (outcome.after [machine.beginning ⟨startEvent, leaf, none⟩ leaf.startSteps])

/-! ## From calls to courses and back

Each function is first read as the rules read it, then both directions go by the
recursion of the functions and by induction on the course. -/

namespace Machine

variable {send : Sender C L} {machine : Machine C L} {outcome : Outcome C L}

theorem runProgram_send_eq_some {number : Nat} {name event : String}
    {next : Except MachineError Path → Program C} {result : Machine C L × Journal L} :
    runProgram send number name (.send event next) machine = some result
      ↔ ∃ reply, send machine event = some reply
        ∧ ∃ rest, runProgram send number name (next reply.result) reply.machine = some rest
          ∧ result = (rest.1,
            reply.journal ++ machine.answering number name event reply :: rest.2) := by
  rw [runProgram]
  simp only [bind, Option.bind_eq_some_iff, pure, Option.some.injEq]
  exact exists_congr fun _ => and_congr_right fun _ => exists_congr fun _ =>
    and_congr_right fun _ => eq_comm

theorem takeStep_pass {occasion : Occasion} {step : Step}
    (h : machine.bindings.get? step = none) :
    takeStep send machine.dispatches occasion step machine
      = some (machine.movedTo step.arrival, [machine.stepping step]) := by
  unfold takeStep
  simp only [h]
  rfl

theorem takeStep_bound {occasion : Occasion} {step : Step} {bound : Bound (Action C)}
    (h : machine.bindings.get? step = some bound) :
    takeStep send machine.dispatches occasion step machine
      = (runProgram send machine.dispatches bound.name (bound.action ⟨step, occasion⟩)
          (machine.movedTo step.arrival)).map fun acted =>
        (acted.1, machine.stepping step :: machine.acting bound.name ⟨step, occasion⟩
          :: acted.2) := by
  unfold takeStep
  simp only [h, bind, Option.map_eq_bind]
  rfl

theorem takeSteps_cons {number : Nat} {occasion : Occasion} {step : Step} {steps : List Step} :
    takeSteps send number occasion (step :: steps) machine
      = (takeStep send number occasion step machine).bind fun taken =>
        if taken.1.dispatches ≠ number then some ⟨taken.1.leftAt, taken.1, taken.2⟩
        else (takeSteps send number occasion steps taken.1).map (·.after taken.2) := by
  rw [takeSteps]
  simp only [Option.map_eq_bind]
  rfl

/-- A step without an action begins no dispatch. -/
theorem takeSteps_pass {occasion : Occasion} {step : Step} {steps : List Step}
    (h : machine.bindings.get? step = none) :
    takeSteps send machine.dispatches occasion (step :: steps) machine
      = (takeSteps send machine.dispatches occasion steps (machine.movedTo step.arrival)).map
        (·.after [machine.stepping step]) := by
  rw [takeSteps_cons, takeStep_pass h, Option.bind_some]
  exact if_neg (not_not_intro rfl)

/-- A step with an action is the last one if the action begins a dispatch. -/
theorem takeSteps_bound {occasion : Occasion} {step : Step} {steps : List Step}
    {bound : Bound (Action C)} (h : machine.bindings.get? step = some bound) :
    takeSteps send machine.dispatches occasion (step :: steps) machine
      = (runProgram send machine.dispatches bound.name (bound.action ⟨step, occasion⟩)
          (machine.movedTo step.arrival)).bind fun acted =>
        let journal := machine.stepping step :: machine.acting bound.name ⟨step, occasion⟩
          :: acted.2
        if acted.1.dispatches = machine.dispatches then
          (takeSteps send acted.1.dispatches occasion steps acted.1).map (·.after journal)
        else some ⟨acted.1.leftAt, acted.1, journal⟩ := by
  rw [takeSteps_cons, takeStep_bound h, Option.bind_map]
  refine congrArg _ (funext fun acted => ?_)
  by_cases hsame : acted.1.dispatches = machine.dispatches
  · simp [hsame]
  · simp [hsame]

theorem dispatch_eq {occasion : Occasion} {steps : List Step} :
    machine.dispatch send occasion steps
      = (takeSteps send (machine.dispatches + 1) occasion steps (machine.begun occasion)).map
        (·.after [machine.beginning occasion steps]) := by
  unfold Machine.dispatch
  simp only [Option.map_eq_bind]
  rfl

/-! ### What returns has a course -/

section Sound

variable (hsend : ∀ {machine : Machine C L} {event : String} {outcome : Outcome C L},
  send machine event = some outcome → Course (.send event) machine outcome)

include hsend

theorem course_of_runProgram {number : Nat} {name : String} {program : Program C}
    {result : Machine C L × Journal L}
    (h : runProgram send number name program machine = some result) :
    Course (.act number name program) machine ⟨result.1.leftAt, result.1, result.2⟩ := by
  induction program generalizing machine result with
  | done =>
    rw [runProgram, Option.some.injEq] at h
    exact h ▸ .done
  | read next ih =>
    rw [runProgram] at h
    exact .read (ih _ h)
  | write context next ih =>
    rw [runProgram] at h
    exact .write (ih h)
  | send event next ih =>
    obtain ⟨reply, hreply, rest, hrest, rfl⟩ := runProgram_send_eq_some.mp h
    have hcourse : Course (.act number name (.send event next)) machine _ :=
      .ask (hsend hreply) (ih _ hrest)
    simpa [Outcome.after] using hcourse

theorem course_of_takeSteps {occasion : Occasion} {steps : List Step}
    (h : takeSteps send machine.dispatches occasion steps machine = some outcome) :
    Course (.walk occasion steps) machine outcome := by
  induction steps generalizing machine outcome with
  | nil =>
    rw [takeSteps, Option.some.injEq] at h
    exact h ▸ .arrive
  | cons step steps ih =>
    cases hbound : machine.bindings.get? step with
    | none =>
      rw [takeSteps_pass hbound] at h
      obtain ⟨rest, hrest, rfl⟩ := Option.map_eq_some_iff.mp h
      exact .pass hbound (ih hrest)
    | some bound =>
      rw [takeSteps_bound hbound] at h
      obtain ⟨acted, hacted, hrest⟩ := Option.bind_eq_some_iff.mp h
      have haction := course_of_runProgram hsend hacted
      by_cases hsame : acted.1.dispatches = machine.dispatches
      · rw [if_pos hsame] at hrest
        obtain ⟨walked, hwalked, rfl⟩ := Option.map_eq_some_iff.mp hrest
        exact .perform hbound haction hsame (ih hwalked)
      · rw [if_neg hsame, Option.some.injEq] at hrest
        exact hrest ▸ .overtaken hbound haction hsame

theorem course_of_sendWith {event : String} (h : sendWith send machine event = some outcome) :
    Course (.send event) machine outcome := by
  unfold sendWith at h
  split at h
  · rename_i current hstatus hactive
    split at h
    · rename_i error herror
      exact Option.some.inj h ▸ .unhandled hstatus hactive herror
    · rename_i transition hok
      rw [dispatch_eq] at h
      obtain ⟨walked, hwalked, rfl⟩ := Option.map_eq_some_iff.mp h
      exact .dispatch hstatus hactive hok (course_of_takeSteps hsend hwalked)
  · rename_i hnot
    refine Option.some.inj h ▸ .unready ?_
    cases hstatus : machine.status with
    | stopped => exact Or.inl rfl
    | running =>
      cases hactive : machine.active with
      | none => exact Or.inr rfl
      | some current => exact absurd hactive (hnot current hstatus)

end Sound

theorem course_of_sendNested {limit : Nat} {event : String}
    (h : sendNested limit machine event = some outcome) :
    Course (.send event) machine outcome := by
  induction limit generalizing machine event outcome with
  | zero => exact nomatch h
  | succ limit ih => exact course_of_sendWith ih h

theorem course_of_start {limit : Nat} (h : machine.start limit = some outcome) :
    Course .start machine outcome := by
  unfold Machine.start at h
  split at h
  · rename_i hstatus
    exact Option.some.inj h ▸ .alreadyRunning hstatus
  · rename_i hstatus
    split at h
    · rename_i error herror
      exact Option.some.inj h ▸ .leafless hstatus herror
    · rename_i leaf hleaf
      rw [dispatch_eq] at h
      obtain ⟨walked, hwalked, rfl⟩ := Option.map_eq_some_iff.mp h
      exact .start hstatus hleaf (course_of_takeSteps course_of_sendNested hwalked)

/-! ### What has a course returns -/

/-- An activity returns with an outcome under a limit. -/
def Returns (limit : Nat) (machine : Machine C L) (outcome : Outcome C L) : Activity C → Prop
  | .act number name program =>
    runProgram (sendNested limit) number name program machine
      = some (outcome.machine, outcome.journal)
  | .walk occasion steps =>
    takeSteps (sendNested limit) machine.dispatches occasion steps machine = some outcome
  | .send event => machine.send limit event = some outcome
  | .start => machine.start limit = some outcome

end Machine

open Machine

/-- The result of an action is where it leaves the machine. -/
theorem Course.result_of_act {number : Nat} {name : String} {program : Program C}
    {machine : Machine C L} {outcome : Outcome C L}
    (h : Course (.act number name program) machine outcome) :
    outcome.result = outcome.machine.leftAt := by
  generalize hactivity : Activity.act number name program = activity at h
  induction h generalizing program with
  | done => rfl
  | read _ ih => cases hactivity; exact ih rfl
  | write _ ih => cases hactivity; exact ih rfl
  | ask _ _ _ ih => cases hactivity; exact ih rfl
  | _ => exact nomatch hactivity

/-- **A course returns under every limit that is large enough.** -/
theorem Course.exists_limit {activity : Activity C} {machine : Machine C L}
    {outcome : Outcome C L} (h : Course activity machine outcome) :
    ∃ least, ∀ limit, least ≤ limit → Returns limit machine outcome activity := by
  induction h with
  | done => exact ⟨0, fun _ _ => rfl⟩
  | read _ ih => exact ih
  | write _ ih => exact ih
  | ask _ _ ihasked ihrest =>
    obtain ⟨least, hasked⟩ := ihasked
    obtain ⟨least', hrest⟩ := ihrest
    -- what an action sends is nested one deeper than the action
    refine ⟨max (least + 1) least', fun limit hle => ?_⟩
    obtain ⟨smaller, rfl⟩ : ∃ smaller, limit = smaller + 1 := ⟨limit - 1, by omega⟩
    refine runProgram_send_eq_some.mpr
      ⟨_, hasked smaller (by omega), _, hrest (smaller + 1) (by omega), ?_⟩
    simp [Outcome.after]
  | arrive => exact ⟨0, fun _ _ => rfl⟩
  | pass unbound _ ih =>
    obtain ⟨least, hrest⟩ := ih
    refine ⟨least, fun limit hle => (takeSteps_pass unbound).trans ?_⟩
    exact Option.map_eq_some_iff.mpr ⟨_, hrest limit hle, rfl⟩
  | perform isBound _ same _ ihaction ihrest =>
    obtain ⟨least, haction⟩ := ihaction
    obtain ⟨least', hrest⟩ := ihrest
    refine ⟨max least least', fun limit hle => (takeSteps_bound isBound).trans ?_⟩
    refine Option.bind_eq_some_iff.mpr ⟨_, haction limit (by omega), (if_pos same).trans ?_⟩
    exact Option.map_eq_some_iff.mpr ⟨_, hrest limit (by omega), rfl⟩
  | @overtaken _ _ _ _ _ acted isBound action other ih =>
    obtain ⟨least, haction⟩ := ih
    refine ⟨least, fun limit hle => (takeSteps_bound isBound).trans ?_⟩
    refine Option.bind_eq_some_iff.mpr ⟨_, haction limit hle, (if_neg other).trans ?_⟩
    rw [← action.result_of_act]
    rfl
  | unready unready =>
    refine ⟨0, fun _ _ => ?_⟩
    show sendWith _ _ _ = _
    unfold sendWith
    split
    · rename_i hstatus hactive
      obtain h | h := unready
      · exact nomatch hstatus.symm.trans h
      · exact nomatch hactive.symm.trans h
    · rfl
  | unhandled running active refused =>
    refine ⟨0, fun _ _ => ?_⟩
    show sendWith _ _ _ = _
    simp only [sendWith, running, active, refused]
  | dispatch running active ok _ ih =>
    obtain ⟨least, hwalk⟩ := ih
    refine ⟨least, fun limit hle => ?_⟩
    show sendWith _ _ _ = _
    simp only [sendWith, running, active, ok, dispatch_eq]
    exact Option.map_eq_some_iff.mpr ⟨_, hwalk limit hle, rfl⟩
  | alreadyRunning running =>
    refine ⟨0, fun _ _ => ?_⟩
    show Machine.start _ _ = _
    simp only [Machine.start, running]
  | leafless stopped refused =>
    refine ⟨0, fun _ _ => ?_⟩
    show Machine.start _ _ = _
    simp only [Machine.start, stopped, refused]
  | start stopped ok _ ih =>
    obtain ⟨least, hwalk⟩ := ih
    refine ⟨least, fun limit hle => ?_⟩
    show Machine.start _ _ = _
    simp only [Machine.start, stopped, ok, dispatch_eq]
    exact Option.map_eq_some_iff.mpr ⟨_, hwalk limit hle, rfl⟩

/-- **A send has a course exactly if it returns** under some limit. -/
theorem course_send_iff {machine : Machine C L} {event : String} {outcome : Outcome C L} :
    Course (.send event) machine outcome ↔ ∃ limit, machine.send limit event = some outcome := by
  constructor
  · intro h
    obtain ⟨least, hreturns⟩ := h.exists_limit
    exact ⟨least, hreturns least (Nat.le_refl least)⟩
  · rintro ⟨limit, h⟩
    exact course_of_sendWith course_of_sendNested h

/-- **A start has a course exactly if it returns** under some limit. -/
theorem course_start_iff {machine : Machine C L} {outcome : Outcome C L} :
    Course .start machine outcome ↔ ∃ limit, machine.start limit = some outcome := by
  constructor
  · intro h
    obtain ⟨least, hreturns⟩ := h.exists_limit
    exact ⟨least, hreturns least (Nat.le_refl least)⟩
  · rintro ⟨limit, h⟩
    exact course_of_start h

/-! ## What a course leaves alone -/

/-- **One machine later than another**: it has the same states, actions and
listeners, and no fewer dispatches have begun. -/
structure Machine.Keeps (machine later : Machine C L) : Prop where
  tree : later.tree = machine.tree
  bindings : later.bindings = machine.bindings
  subscribers : later.subscribers = machine.subscribers
  dispatches : machine.dispatches ≤ later.dispatches

theorem Machine.Keeps.refl (machine : Machine C L) : machine.Keeps machine :=
  ⟨rfl, rfl, rfl, Nat.le_refl _⟩

theorem Machine.Keeps.trans {machine later last : Machine C L} (h : machine.Keeps later)
    (h' : later.Keeps last) : machine.Keeps last :=
  ⟨h'.tree.trans h.tree, h'.bindings.trans h.bindings, h'.subscribers.trans h.subscribers,
    Nat.le_trans h.dispatches h'.dispatches⟩

theorem Machine.keeps_movedTo (machine : Machine C L) (path : Path) :
    machine.Keeps (machine.movedTo path) :=
  ⟨rfl, rfl, rfl, Nat.le_refl _⟩

theorem Machine.keeps_begun (machine : Machine C L) (occasion : Occasion) :
    machine.Keeps (machine.begun occasion) :=
  ⟨rfl, rfl, rfl, Nat.le_succ _⟩

theorem Machine.keeps_write (machine : Machine C L) (context : C) :
    machine.Keeps { machine with context } :=
  ⟨rfl, rfl, rfl, Nat.le_refl _⟩

/-- **No course changes the states, the actions or the listeners.** -/
theorem Course.keeps {activity : Activity C} {machine : Machine C L} {outcome : Outcome C L}
    (h : Course activity machine outcome) : machine.Keeps outcome.machine := by
  induction h with
  | done => exact .refl _
  | read _ ih => exact ih
  | write _ ih => exact (keeps_write _ _).trans ih
  | ask _ _ ihasked ihrest => exact ihasked.trans ihrest
  | arrive => exact keeps_movedTo _ _
  | pass _ _ ih => exact (keeps_movedTo _ _).trans ih
  | perform _ _ _ _ ihaction ihrest => exact ((keeps_movedTo _ _).trans ihaction).trans ihrest
  | overtaken _ _ _ ihaction => exact (keeps_movedTo _ _).trans ihaction
  | unready _ => exact .refl _
  | unhandled _ _ _ => exact .refl _
  | dispatch _ _ _ _ ih => exact (keeps_begun _ _).trans ih
  | alreadyRunning _ => exact .refl _
  | leafless _ _ => exact .refl _
  | start _ _ _ ih => exact (keeps_begun _ _).trans ih

end Statechart
