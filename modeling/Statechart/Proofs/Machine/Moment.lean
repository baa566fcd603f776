import Statechart.Proofs.Machine.Course

/-!
# Moments of an action

An action has the word several times while it runs: at first, after it has read
or written the context, and whenever an event that it sent has been answered. At
each of these moments it may send an event, whatever it did before and however
deep the dispatch that it belongs to is nested. A `Stretch` of an activity is what
happens until then, and a `Moment` is the machine as the action finds it; the
activity need not come to an end.

Everything that an action is answered it is answered at such a moment
(`Course.givenIn`).
-/

namespace Statechart

variable {C L : Type}

open Machine (Outcome)

/-- **What happens up to a moment at which an action has the word**, and the machine at
that moment. -/
inductive Stretch : Activity C → Machine C L → Journal L → Machine C L → Prop where
  /-- It has the word now. -/
  | now {dispatch : Nat} {name : String} {program : Program C} {machine : Machine C L} :
    Stretch (.act dispatch name program) machine [] machine
  /-- After it has read the context. -/
  | read {dispatch : Nat} {name : String} {next : C → Program C} {machine now : Machine C L}
    {journal : Journal L}
    (later : Stretch (.act dispatch name (next machine.context)) machine journal now) :
    Stretch (.act dispatch name (.read next)) machine journal now
  /-- After it has replaced the context. -/
  | write {dispatch : Nat} {name : String} {context : C} {next : Program C}
    {machine now : Machine C L} {journal : Journal L}
    (later : Stretch (.act dispatch name next) { machine with context } journal now) :
    Stretch (.act dispatch name (.write context next)) machine journal now
  /-- Another action has the word, while an event that was sent is carried out. -/
  | asked {dispatch : Nat} {name event : String}
    {next : Except MachineError Path → Program C} {machine now : Machine C L}
    {journal : Journal L} (inner : Stretch (.send event) machine journal now) :
    Stretch (.act dispatch name (.send event next)) machine journal now
  /-- After an event that was sent has been answered. -/
  | answered {dispatch : Nat} {name event : String}
    {next : Except MachineError Path → Program C} {machine now : Machine C L}
    {reply : Outcome C L} {journal : Journal L} (asked : Course (.send event) machine reply)
    (later : Stretch (.act dispatch name (next reply.result)) reply.machine journal now) :
    Stretch (.act dispatch name (.send event next)) machine
      (reply.journal ++ [machine.answering dispatch name event reply] ++ journal) now
  /-- After a step without an action. -/
  | pass {occasion : Occasion} {step : Step} {steps : List Step} {machine now : Machine C L}
    {journal : Journal L} (unbound : machine.bindings.get? step = none)
    (later : Stretch (.walk occasion steps) (machine.movedTo step.arrival) journal now) :
    Stretch (.walk occasion (step :: steps)) machine ([machine.stepping step] ++ journal) now
  /-- During the action of a step. -/
  | action {occasion : Occasion} {step : Step} {steps : List Step} {bound : Bound (Action C)}
    {machine now : Machine C L} {journal : Journal L}
    (isBound : machine.bindings.get? step = some bound)
    (inner : Stretch (.act machine.dispatches bound.name (bound.action ⟨step, occasion⟩))
      (machine.movedTo step.arrival) journal now) :
    Stretch (.walk occasion (step :: steps)) machine
      ([machine.stepping step, machine.acting bound.name ⟨step, occasion⟩] ++ journal) now
  /-- After the action of a step. -/
  | perform {occasion : Occasion} {step : Step} {steps : List Step} {bound : Bound (Action C)}
    {machine now : Machine C L} {acted : Outcome C L} {journal : Journal L}
    (isBound : machine.bindings.get? step = some bound)
    (action : Course (.act machine.dispatches bound.name (bound.action ⟨step, occasion⟩))
      (machine.movedTo step.arrival) acted)
    (same : acted.machine.dispatches = machine.dispatches)
    (later : Stretch (.walk occasion steps) acted.machine journal now) :
    Stretch (.walk occasion (step :: steps)) machine
      ([machine.stepping step, machine.acting bound.name ⟨step, occasion⟩] ++ acted.journal
        ++ journal) now
  /-- During the dispatch that an event begins. -/
  | dispatch {event : String} {current : Path} {transition : Transition}
    {machine now : Machine C L} {journal : Journal L} (running : machine.status = .running)
    (active : machine.active = some current)
    (ok : machine.tree.transition current event = .ok transition)
    (walk : Stretch (.walk ⟨event, transition.leaf, some ⟨current, event⟩⟩ transition.steps)
      (machine.begun ⟨event, transition.leaf, some ⟨current, event⟩⟩) journal now) :
    Stretch (.send event) machine
      ([machine.beginning ⟨event, transition.leaf, some ⟨current, event⟩⟩ transition.steps]
        ++ journal) now
  /-- During a start. -/
  | start {leaf : Path} {machine now : Machine C L} {journal : Journal L}
    (stopped : machine.status = .stopped) (ok : machine.tree.leafOf .root = .ok leaf)
    (walk : Stretch (.walk ⟨startEvent, leaf, none⟩ leaf.startSteps)
      (machine.begun ⟨startEvent, leaf, none⟩) journal now) :
    Stretch .start machine
      ([machine.beginning ⟨startEvent, leaf, none⟩ leaf.startSteps] ++ journal) now

/-- **A moment at which an action has the word**, whatever has happened until then: from the
machine at the beginning of an activity to the machine as the action finds it. -/
def Moment (activity : Activity C) (machine now : Machine C L) : Prop :=
  ∃ journal : Journal L, Stretch activity machine journal now

/-- **A moment of a call**: an action has the word while the machine is started, or
while an event is sent to it. -/
def Machine.During (machine now : Machine C L) : Prop :=
  Moment .start machine now ∨ ∃ event, Moment (.send event) machine now

/-- **No action changes the states, the actions or the listeners.** -/
theorem Stretch.keeps {activity : Activity C} {machine now : Machine C L} {journal : Journal L}
    (h : Stretch activity machine journal now) : machine.Keeps now := by
  induction h with
  | now => exact .refl _
  | read _ ih => exact ih
  | write _ ih => exact (Machine.keeps_write _ _).trans ih
  | asked _ ih => exact ih
  | answered asked _ ih => exact asked.keeps.trans ih
  | pass _ _ ih => exact (Machine.keeps_movedTo _ _).trans ih
  | action _ _ ih => exact (Machine.keeps_movedTo _ _).trans ih
  | perform _ action _ _ ih => exact ((Machine.keeps_movedTo _ _).trans action.keeps).trans ih
  | dispatch _ _ _ _ ih => exact (Machine.keeps_begun _ _).trans ih
  | start _ _ _ ih => exact (Machine.keeps_begun _ _).trans ih

theorem Machine.During.keeps {machine now : Machine C L} (h : machine.During now) :
    machine.Keeps now := by
  obtain ⟨journal, stretch⟩ | ⟨event, journal, stretch⟩ := h
  · exact stretch.keeps
  · exact stretch.keeps

/-! ## Answers -/

/-- **An answer is one that was given at a moment** of an activity: it is what a
send came to then. Nothing is said of entries that are not answers. -/
def Journal.Entry.GivenIn (entry : Journal.Entry L) (activity : Activity C)
    (machine : Machine C L) : Prop :=
  ∀ ⦃name event asked reply⦄, entry.happening = .answered name event asked reply →
    ∃ (now : Machine C L) (inner : Outcome C L), Moment activity machine now
      ∧ Course (.send event) now inner ∧ now.toConfiguration = asked ∧ inner.result = reply
      ∧ inner.machine.toConfiguration = entry.configuration

theorem Journal.Entry.GivenIn.imp {entry : Journal.Entry L} {activity activity' : Activity C}
    {machine machine' : Machine C L} (h : entry.GivenIn activity machine)
    (hmoment : ∀ now, Moment activity machine now → Moment activity' machine' now) :
    entry.GivenIn activity' machine' := by
  intro name event asked reply heq
  obtain ⟨now, inner, hnow, hinner⟩ := h heq
  exact ⟨now, inner, hmoment now hnow, hinner⟩

/-- **Every answer in the journal of a course was given at some moment.** -/
theorem Course.givenIn {activity : Activity C} {machine : Machine C L} {outcome : Outcome C L}
    (h : Course activity machine outcome) :
    ∀ entry ∈ outcome.journal, entry.GivenIn activity machine := by
  induction h with
  | done => exact fun _ hmem => nomatch hmem
  | read _ ih => exact fun entry hmem => (ih entry hmem).imp fun _ ⟨_, later⟩ => ⟨_, .read later⟩
  | write _ ih => exact fun entry hmem => (ih entry hmem).imp fun _ ⟨_, later⟩ => ⟨_, .write later⟩
  | @ask _ _ _ _ machine reply _ asked _ ihasked ihrest =>
    intro entry hmem
    obtain (hreply | hanswer) | hrest := List.mem_append.mp hmem |>.imp_left List.mem_append.mp
    · exact (ihasked entry hreply).imp fun _ ⟨_, inner⟩ => ⟨_, .asked inner⟩
    · -- the answer itself was given when the action had the word first
      rw [List.mem_singleton.mp hanswer]
      rintro name event asking result ⟨⟩
      exact ⟨machine, reply, ⟨_, .now⟩, asked, rfl, rfl, rfl⟩
    · exact (ihrest entry hrest).imp fun _ ⟨_, later⟩ => ⟨_, .answered asked later⟩
  | arrive =>
    intro entry hmem _ _ _ _ heq
    obtain ⟨_, -, rfl⟩ := List.mem_map.mp hmem
    exact nomatch heq
  | pass unbound _ ih =>
    refine List.forall_mem_cons.mpr ⟨nofun, fun entry hmem => ?_⟩
    exact (ih entry hmem).imp fun _ ⟨_, later⟩ => ⟨_, .pass unbound later⟩
  | perform isBound action same _ ihaction ihrest =>
    refine List.forall_mem_cons.mpr ⟨nofun, List.forall_mem_cons.mpr ⟨nofun, ?_⟩⟩
    intro entry hmem
    obtain hacted | hrest := List.mem_append.mp hmem
    · exact (ihaction entry hacted).imp fun _ ⟨_, inner⟩ => ⟨_, .action isBound inner⟩
    · exact (ihrest entry hrest).imp fun _ ⟨_, later⟩ => ⟨_, .perform isBound action same later⟩
  | overtaken isBound _ _ ihaction =>
    refine List.forall_mem_cons.mpr ⟨nofun, List.forall_mem_cons.mpr ⟨nofun, ?_⟩⟩
    exact fun entry hmem =>
      (ihaction entry hmem).imp fun _ ⟨_, inner⟩ => ⟨_, .action isBound inner⟩
  | unready _ => exact fun _ hmem => nomatch hmem
  | unhandled _ _ _ => exact fun _ hmem => nomatch hmem
  | dispatch running active ok _ ih =>
    refine List.forall_mem_cons.mpr ⟨nofun, fun entry hmem => ?_⟩
    exact (ih entry hmem).imp fun _ ⟨_, walk⟩ => ⟨_, .dispatch running active ok walk⟩
  | alreadyRunning _ => exact fun _ hmem => nomatch hmem
  | leafless _ _ => exact fun _ hmem => nomatch hmem
  | start stopped ok _ ih =>
    refine List.forall_mem_cons.mpr ⟨nofun, fun entry hmem => ?_⟩
    exact (ih entry hmem).imp fun _ ⟨_, walk⟩ => ⟨_, .start stopped ok walk⟩

end Statechart
