import Mathlib.Data.List.Basic
import Statechart.Proofs.Machine.Journal
import Statechart.Proofs.Machine.Vain
import Statechart.Proofs.Split

/-!
# Whose history it is

A machine has one history, and every dispatch that an event begins overwrites it,
while the actions of the dispatches around it still have the word. What an action is
told is the history of its own dispatch, and does not change. A `Chronicle` keeps the
two apart: it says of all that has happened since a start what the history of the
machine is at each entry, and which dispatch the scope of each action describes.

A chronicle is an invariant. It goes on with a dispatch that begins
(`Chronicle.began`) and with any other entry (`Chronicle.went`), and so every course
keeps it (`Course.chronicles`). The dispatch that an action belongs to is known by its
number alone, since no two of them have the same.
-/

namespace Statechart

variable {C L : Type}

open Machine (Outcome)

/-! ## Chronicles -/

namespace Journal

/-- **What was left last**: by the dispatch that began last, if that was no start. -/
def departure? (journal : Journal L) : Option Departure :=
  journal.headers.getLast?.bind (·.occasion.departure)

variable {journal : Journal L} {entry : Journal.Entry L}

theorem headers_concat (h : entry.happening.isBeginning = false) :
    headers (journal ++ [entry]) = journal.headers := by
  have hnone : headers [entry] = [] := by
    obtain ⟨number, happening, noted⟩ := entry
    cases happening with
    | began occasion steps => exact nomatch h
    | _ => rfl
  rw [headers_append, hnone, List.append_nil]

theorem departure?_concat (h : entry.happening.isBeginning = false) :
    departure? (journal ++ [entry]) = journal.departure? := by
  unfold departure?
  rw [headers_concat h]

@[simp] theorem departure?_began (number : Nat) (occasion : Occasion) (steps : List Step)
    (noted : Configuration) :
    departure? (journal ++ [⟨number, .began occasion steps, noted⟩]) = occasion.departure := by
  show Option.bind (headers (journal ++ [_])).getLast? _ = _
  rw [headers_append]
  show Option.bind (journal.headers ++ [Header.mk number occasion steps]).getLast? _ = _
  rw [List.getLast?_concat]
  rfl

/-- What is true of each entry and the journal before it stays true when the journal goes
on. -/
theorem forall_split_concat {last : Journal.Entry L}
    {property : Journal L → Journal.Entry L → Prop}
    (h : ∀ before entry after, journal = before ++ entry :: after → property before entry)
    (hlast : property journal last) (before : Journal L) (entry : Journal.Entry L)
    (after : Journal L) (hsplit : journal ++ [last] = before ++ entry :: after) :
    property before entry := by
  obtain ⟨rfl, rfl, -⟩ | ⟨later, -, hjournal⟩ := split_concat hsplit
  · exact hlast
  · exact h before entry later hjournal

end Journal

/-- **What a dispatch is about** that begins after a journal: it is the start with which
the journal begins, or a transition from the path that the entry before it notes. -/
inductive Tree.Begins (tree : Tree) : Journal L → Occasion → Prop where
  /-- The machine is started. -/
  | start {leaf : Path} (ok : tree.leafOf .root = .ok leaf) :
    tree.Begins [] ⟨startEvent, leaf, none⟩
  /-- An event is sent. -/
  | send {before : Journal L} {entry : Journal.Entry L} {current : Path} {event : String}
    {transition : Transition} (active : entry.configuration.active = some current)
    (ok : tree.transition current event = .ok transition) :
    tree.Begins (before ++ [entry]) ⟨event, transition.leaf, some ⟨current, event⟩⟩

/-- **An entry that keeps history and dispatches apart.** -/
structure Journal.Entry.Recalls (entry : Journal.Entry L) (tree : Tree) (before : Journal L) :
    Prop where
  /-- The history of the machine is what was left last. -/
  history : entry.configuration.history = departure? (before ++ [entry])
  /-- A dispatch that begins is about the event that begins it. -/
  began : ∀ occasion steps, entry.happening = .began occasion steps → tree.Begins before occasion
  /-- An action is told what its own dispatch is about. -/
  ran : ∀ name scope, entry.happening = .ran name scope →
    ∃ steps, ⟨entry.dispatch, scope.occasion, steps⟩ ∈ before.headers
  /-- An event that was refused has left the history as it was. -/
  refused : ∀ name event asked error,
    entry.happening = .answered name event asked (.error error) →
      entry.configuration.history = asked.history

/-- **A chronicle**: all that has happened since a start, up to the machine as it is
now. -/
structure Chronicle (tree : Tree) (journal : Journal L) (active : Option Path)
    (history : Option Departure) (dispatches : Nat) : Prop where
  /-- The history of the machine is what was left last. -/
  history : history = journal.departure?
  /-- Each entry keeps history and dispatches apart. -/
  recalls : ∀ before entry after, journal = before ++ entry :: after → entry.Recalls tree before
  /-- The active path is noted by the last entry. -/
  active : ∀ path, active = some path →
    ∃ before entry, journal = before ++ [entry] ∧ entry.configuration.active = some path
  /-- No two dispatches have the same number. -/
  numbers : journal.headers.Pairwise fun earlier later => earlier.number < later.number
  /-- The last has the highest. -/
  last : ∀ header ∈ journal.headers, header.number ≤ dispatches

namespace Chronicle

variable {tree : Tree} {journal : Journal L} {active : Option Path}
  {history : Option Departure} {dispatches : Nat}

/-- The chronicle in which nothing has happened. -/
theorem new (tree : Tree) (dispatches : Nat) :
    Chronicle tree ([] : Journal L) none none dispatches :=
  ⟨rfl, fun _ _ _ hsplit => absurd hsplit (by simp), nofun, .nil, fun _ hmem => nomatch hmem⟩

/-- An event that is sent begins a dispatch that leaves the active path. -/
theorem begins {current : Path} {event : String} {transition : Transition}
    (h : Chronicle tree journal (some current) history dispatches)
    (ok : tree.transition current event = .ok transition) :
    tree.Begins journal ⟨event, transition.leaf, some ⟨current, event⟩⟩ := by
  obtain ⟨before, entry, rfl, hactive⟩ := h.active current rfl
  exact .send hactive ok

/-- **It goes on with a dispatch that begins.** -/
theorem began {occasion : Occasion} {steps : List Step} {noted : Configuration}
    {active' : Option Path} (h : Chronicle tree journal active history dispatches)
    (hbegins : tree.Begins journal occasion) (hhistory : noted.history = occasion.departure)
    (hactive : ∀ path, active' = some path → noted.active = some path) :
    Chronicle tree (journal ++ [⟨dispatches + 1, .began occasion steps, noted⟩]) active'
      occasion.departure (dispatches + 1) := by
  refine ⟨by rw [Journal.departure?_began], Journal.forall_split_concat h.recalls ?_,
    fun path hpath => ⟨_, _, rfl, hactive path hpath⟩, ?_, ?_⟩
  · refine ⟨?_, fun occasion steps heq => ?_, nofun, nofun⟩
    · rw [Journal.departure?_began]
      exact hhistory
    · obtain ⟨rfl, -⟩ := Happening.began.inj heq
      exact hbegins
  · rw [Journal.headers_append]
    refine List.pairwise_append.mpr ⟨h.numbers, List.pairwise_singleton _ _, ?_⟩
    intro header hmem
    exact List.forall_mem_singleton.mpr (Nat.lt_succ_of_le (h.last header hmem))
  · rw [Journal.headers_append]
    refine List.forall_mem_append.mpr ⟨fun header hmem => ?_, ?_⟩
    · exact Nat.le_succ_of_le (h.last header hmem)
    · exact List.forall_mem_singleton.mpr (Nat.le_refl _)

/-- **It goes on with any other entry.** -/
theorem went {entry : Journal.Entry L} (h : Chronicle tree journal active history dispatches)
    (hbeginning : entry.happening.isBeginning = false)
    (hhistory : entry.configuration.history = history)
    (hran : ∀ name scope, entry.happening = .ran name scope →
      ∃ steps, ⟨entry.dispatch, scope.occasion, steps⟩ ∈ journal.headers)
    (hrefused : ∀ name event asked error,
      entry.happening = .answered name event asked (.error error) →
        entry.configuration.history = asked.history) :
    Chronicle tree (journal ++ [entry]) entry.configuration.active history dispatches := by
  have hdeparture : history = Journal.departure? (journal ++ [entry]) := by
    rw [Journal.departure?_concat hbeginning]
    exact h.history
  refine ⟨hdeparture, Journal.forall_split_concat h.recalls ?_,
    fun path hpath => ⟨_, _, rfl, hpath⟩, ?_, ?_⟩
  · refine ⟨hhistory.trans hdeparture, fun occasion steps heq => ?_, hran, hrefused⟩
    rw [heq] at hbeginning
    exact nomatch hbeginning
  · rw [Journal.headers_concat hbeginning]
    exact h.numbers
  · rw [Journal.headers_concat hbeginning]
    exact h.last

/-- It goes on with what listeners are told. -/
theorem told {machine : Machine C L} {leaf : Path} {event : String} {number : Nat}
    (h : Chronicle tree journal machine.active machine.history dispatches) :
    Chronicle tree (journal ++ machine.tell number leaf event) machine.active machine.history
      dispatches := by
  unfold Machine.tell
  induction machine.subscribers.listeners generalizing journal with
  | nil => exact (List.append_nil journal).symm ▸ h
  | cons listener listeners ih =>
    rw [List.map_cons, List.append_cons]
    exact ih (h.went rfl rfl nofun nofun)

end Chronicle

/-! ## The chronicle of a course -/

/-- **A machine has gone on from a chronicle**, and some things have happened. -/
def Machine.GoesOn (now : Machine C L) (tree : Tree) (journal : Journal L) : Prop :=
  Chronicle tree journal now.active now.history now.dispatches

/-- **What an activity makes of a chronicle.** A walk goes on from wherever its steps
lead on from, since a start leads on from nothing. -/
def Activity.Chronicles : Activity C → Machine C L → Journal L → Machine C L → Prop
  | .act _ _ _, machine, journal, now | .send _, machine, journal, now =>
    ∀ before, machine.GoesOn machine.tree before → now.GoesOn machine.tree (before ++ journal)
  | .walk occasion steps, machine, journal, now =>
    ∀ before active, Chronicle machine.tree before active machine.history machine.dispatches →
      Replay active steps (some occasion.leaf) →
      (∃ planned, ⟨machine.dispatches, occasion, planned⟩ ∈ Journal.headers before) →
        now.GoesOn machine.tree (before ++ journal)
  | .start, machine, journal, now =>
    machine.status = .stopped → now.GoesOn machine.tree journal

namespace Machine.GoesOn

variable {machine : Machine C L} {tree : Tree} {journal : Journal L}

/-- Nothing happens. -/
theorem append_nil (h : machine.GoesOn tree journal) : machine.GoesOn tree (journal ++ []) :=
  (List.append_nil journal).symm ▸ h

/-- An action has the answer to an event that it sent. -/
theorem answered {number : Nat} {name event : String} {reply : Outcome C L}
    (asked : Course (.send event) machine reply) (h : reply.machine.GoesOn tree journal) :
    reply.machine.GoesOn tree (journal ++ [machine.answering number name event reply]) := by
  refine h.went rfl rfl nofun fun _ _ _ error heq => ?_
  obtain ⟨-, -, rfl, hresult⟩ := Happening.answered.inj heq
  obtain rfl := Machine.Outcome.eq_refuse asked.settles hresult
  rfl

/-- A step is taken. -/
theorem stepped {step : Step} {active : Option Path}
    (h : Chronicle tree journal active machine.history machine.dispatches) :
    (machine.movedTo step.arrival).GoesOn tree (journal ++ [machine.stepping step]) :=
  h.went rfl rfl nofun nofun

/-- A step is taken, and its action begins. -/
theorem acted {occasion : Occasion} {step : Step} {name : String} {active : Option Path}
    (h : Chronicle tree journal active machine.history machine.dispatches)
    (hplanned : ∃ planned, ⟨machine.dispatches, occasion, planned⟩ ∈ journal.headers) :
    (machine.movedTo step.arrival).GoesOn tree
      (journal ++ [machine.stepping step, machine.acting name ⟨step, occasion⟩]) := by
  rw [List.append_cons]
  refine (stepped h).went rfl rfl (fun _ _ heq => ?_) nofun
  obtain ⟨-, rfl⟩ := Happening.ran.inj heq
  rw [Journal.headers_concat rfl]
  exact hplanned

end Machine.GoesOn

namespace Activity.Chronicles

variable {occasion : Occasion} {step : Step} {steps : List Step} {number : Nat}
  {name event : String} {program next : Program C} {machine now : Machine C L}
  {journal : Journal L}

/-- An action sends an event, and goes on with the answer. -/
theorem ask {reply : Outcome C L} (asked : Course (.send event) machine reply)
    (hasked : (Activity.send event).Chronicles machine reply.journal reply.machine)
    (hrest : (Activity.act number name next).Chronicles reply.machine journal now) :
    (Activity.act number name program).Chronicles machine
      (reply.journal ++ [machine.answering number name event reply] ++ journal) now := by
  intro before hbefore
  have hreply : reply.machine.GoesOn machine.tree
      (before ++ reply.journal ++ [machine.answering number name event reply]) :=
    .answered asked (hasked before hbefore)
  rw [← asked.keeps.tree] at hreply ⊢
  have hnow := hrest _ hreply
  simp only [List.append_assoc] at hnow ⊢
  exact hnow

/-- A step is taken that has no action. -/
theorem pass (hrest : (Activity.walk occasion steps).Chronicles (machine.movedTo step.arrival)
      journal now) :
    (Activity.walk occasion (step :: steps)).Chronicles machine
      ([machine.stepping step] ++ journal) now := by
  intro before active hbefore hreplay hplanned
  cases hreplay with
  | cons move replay =>
    obtain rfl := move.arrival_eq
    rw [← List.append_assoc]
    refine hrest _ _ (Machine.GoesOn.stepped hbefore) replay ?_
    rw [Journal.headers_concat rfl]
    exact hplanned

/-- The action of a step has the word. -/
theorem action (haction : (Activity.act machine.dispatches name program).Chronicles
      (machine.movedTo step.arrival) journal now) :
    (Activity.walk occasion (step :: steps)).Chronicles machine
      ([machine.stepping step, machine.acting name ⟨step, occasion⟩] ++ journal) now := by
  intro before active hbefore _ hplanned
  rw [← List.append_assoc]
  exact haction _ (.acted hbefore hplanned)

/-- A step is taken whose action begins no dispatch. -/
theorem perform {acted : Outcome C L}
    (action : Course (.act machine.dispatches name program) (machine.movedTo step.arrival) acted)
    (same : acted.machine.dispatches = machine.dispatches)
    (haction : (Activity.act machine.dispatches name program).Chronicles
      (machine.movedTo step.arrival) acted.journal acted.machine)
    (hrest : (Activity.walk occasion steps).Chronicles acted.machine journal now) :
    (Activity.walk occasion (step :: steps)).Chronicles machine
      ([machine.stepping step, machine.acting name ⟨step, occasion⟩] ++ acted.journal ++ journal)
      now := by
  intro before active hbefore hreplay hplanned
  cases hreplay with
  | cons move replay =>
    obtain rfl := move.arrival_eq
    have hacted := Chronicles.action haction before active hbefore (.cons move replay) hplanned
    -- an action that begins no dispatch leaves the machine where the step arrived
    have hactive : acted.machine.active = some step.arrival :=
      congrArg Configuration.active (action.toConfiguration_eq same)
    obtain ⟨planned, hmem⟩ := hplanned
    rw [← List.append_assoc]
    rw [← hactive] at replay
    have htree : acted.machine.tree = machine.tree := action.keeps.tree
    rw [← htree] at hacted ⊢
    refine hrest _ _ hacted replay ⟨planned, ?_⟩
    rw [same, Journal.headers_append]
    exact List.mem_append_left _ hmem

/-- An event begins a dispatch. -/
theorem dispatch {current : Path} {transition : Transition}
    (active : machine.active = some current)
    (ok : machine.tree.transition current event = .ok transition)
    (hwalk : (Activity.walk ⟨event, transition.leaf, some ⟨current, event⟩⟩
        transition.steps).Chronicles
      (machine.begun ⟨event, transition.leaf, some ⟨current, event⟩⟩) journal now) :
    (Activity.send event).Chronicles machine
      ([machine.beginning ⟨event, transition.leaf, some ⟨current, event⟩⟩ transition.steps]
        ++ journal) now := by
  intro before hbefore
  unfold Machine.GoesOn at hbefore
  rw [active] at hbefore
  rw [← List.append_assoc]
  refine hwalk _ _ (hbefore.began (hbefore.begins ok) rfl fun _ hpath => active.trans hpath)
    (Tree.leads_of_transition ok).replay ⟨transition.steps, ?_⟩
  rw [Journal.headers_append]
  exact List.mem_append_right _ (List.mem_singleton_self _)

/-- A start begins a dispatch. -/
theorem start {leaf : Path} (ok : machine.tree.leafOf .root = .ok leaf)
    (hwalk : (Activity.walk ⟨startEvent, leaf, none⟩ leaf.startSteps).Chronicles
      (machine.begun ⟨startEvent, leaf, none⟩) journal now) :
    (Activity.start).Chronicles machine
      ([machine.beginning ⟨startEvent, leaf, none⟩ leaf.startSteps] ++ journal) now := by
  intro _
  -- what was active before does not matter to the steps, which lead on from nothing
  have hbegun : Chronicle machine.tree
      ([] ++ [machine.beginning ⟨startEvent, leaf, none⟩ leaf.startSteps]) none none
        (machine.dispatches + 1) :=
    (Chronicle.new machine.tree machine.dispatches).began (.start ok) rfl nofun
  exact hwalk _ none hbegun (Tree.leads_of_start ok).replay
    ⟨leaf.startSteps, List.mem_singleton_self _⟩

end Activity.Chronicles

/-- **Every course goes on from a chronicle.** -/
theorem Course.chronicles {activity : Activity C} {machine : Machine C L} {outcome : Outcome C L}
    (h : Course activity machine outcome) :
    activity.Chronicles machine outcome.journal outcome.machine := by
  induction h with
  | done => exact fun _ hbefore => hbefore.append_nil
  | read _ ih => exact ih
  | write _ ih => exact ih
  | ask asked _ ihasked ihrest => exact .ask asked ihasked ihrest
  | arrive =>
    intro before active hbefore hreplay _
    -- no step is left, so the leaf is active already
    cases hreplay
    exact hbefore.told
  | pass _ _ ih => exact .pass ih
  | perform _ action same _ ihaction ihrest => exact .perform action same ihaction ihrest
  | overtaken _ _ _ ihaction => exact .action ihaction
  | unready _ => exact fun _ hbefore => hbefore.append_nil
  | unhandled _ _ _ => exact fun _ hbefore => hbefore.append_nil
  | dispatch _ active ok _ ih => exact .dispatch active ok ih
  | alreadyRunning running => exact fun stopped => nomatch stopped.symm.trans running
  | @leafless _ machine _ refused =>
    obtain ⟨leaf, hleaf, -⟩ := Tree.leafOf_eq_ok (Tree.hasNode_root machine.tree)
    exact nomatch hleaf.symm.trans refused
  | start _ ok _ ih => exact .start ok ih

end Statechart
