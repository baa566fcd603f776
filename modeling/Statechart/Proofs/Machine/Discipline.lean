import Statechart.Proofs.Machine.Journal
import Statechart.Proofs.Machine.Rest
import Statechart.Proofs.Replay
import Statechart.Proofs.Split

/-!
# The steps of a run

The journal of a call lists the steps of all its dispatches as they were taken,
those of a dispatch that was overtaken and those of the dispatches that overtook
it. Taken together they have the discipline of a stack all the same
(`Journal.Disciplined`): whichever dispatch a step belongs to, it moves on from
where the step before it has arrived.

`Traced` says so of a journal, and says as well that each entry notes where the
machine was. It is kept from entry to entry by the course of a call
(`Course.traces`), since the steps of a dispatch lead on from the path that was
active when it began, and a dispatch that is overtaken takes no further step.
-/

namespace Statechart

variable {C L : Type}

open Machine (Outcome)

/-- **A journal that has been kept**, from one active path to another: each step
moves on from the active path, and what is noted at a step, as its action begins,
at an answer and when a listener is told is the active path. -/
inductive Traced : Option Path → Journal L → Option Path → Prop where
  /-- Nothing happens. -/
  | nil {active : Option Path} : Traced active [] active
  /-- A dispatch begins. -/
  | began {active last : Option Path} {number : Nat} {occasion : Occasion} {steps : List Step}
    {noted : Configuration} {journal : Journal L} (rest : Traced active journal last) :
    Traced active (⟨number, .began occasion steps, noted⟩ :: journal) last
  /-- A step is taken. -/
  | took {active last : Option Path} {number : Nat} {step : Step} {next : Path}
    {noted : Configuration} {journal : Journal L} (move : Moves active step next)
    (hnoted : noted.active = some next) (rest : Traced (some next) journal last) :
    Traced active (⟨number, .took step, noted⟩ :: journal) last
  /-- A step is taken, and its action begins. -/
  | ran {active last : Option Path} {number : Nat} {name : String} {step : Step}
    {occasion : Occasion} {next : Path} {noted noted' : Configuration} {journal : Journal L}
    (move : Moves active step next) (hnoted : noted.active = some next)
    (hnoted' : noted'.active = some next) (rest : Traced (some next) journal last) :
    Traced active (⟨number, .took step, noted⟩ :: ⟨number, .ran name ⟨step, occasion⟩, noted'⟩
      :: journal) last
  /-- An action is answered. -/
  | answered {active last : Option Path} {number : Nat} {name event : String}
    {asked : Configuration} {reply : Except MachineError Path} {noted : Configuration}
    {journal : Journal L} (hnoted : noted.active = active) (rest : Traced active journal last) :
    Traced active (⟨number, .answered name event asked reply, noted⟩ :: journal) last
  /-- A listener is told. -/
  | told {active last : Option Path} {number : Nat} {handle : Handle} {listener : L} {leaf : Path}
    {event : String} {noted : Configuration} {journal : Journal L}
    (hnoted : noted.active = active) (rest : Traced active journal last) :
    Traced active (⟨number, .told handle listener leaf event, noted⟩ :: journal) last

namespace Traced

variable {active middle last : Option Path} {journal journal' : Journal L}

theorem append (h : Traced active journal middle) (h' : Traced middle journal' last) :
    Traced active (journal ++ journal') last := by
  induction h with
  | nil => exact h'
  | began _ ih => exact .began (ih h')
  | took move hnoted _ ih => exact .took move hnoted (ih h')
  | ran move hnoted hnoted' _ ih => exact .ran move hnoted hnoted' (ih h')
  | answered hnoted _ ih => exact .answered hnoted (ih h')
  | told hnoted _ ih => exact .told hnoted (ih h')

/-- **The steps of a journal lead on from one another.** -/
theorem replay (h : Traced active journal last) : Replay active journal.steps last := by
  induction h with
  | nil => exact .nil
  | began _ ih => exact ih
  | took move _ _ ih => exact .cons move ih
  | ran move _ _ _ ih => exact .cons move ih
  | answered _ _ ih => exact ih
  | told _ _ ih => exact ih

/-- **What an entry notes is where the replay stands**, once its own step has been
taken. Only where a dispatch begins is nothing said: a start finds the machine at
a leaf that it was stopped at. -/
theorem noted (h : Traced active journal last) {before after : Journal L}
    {entry : Journal.Entry L} (hsplit : journal = before ++ entry :: after)
    (hentry : ∀ occasion steps, entry.happening ≠ .began occasion steps) :
    Replay active (Journal.steps (before ++ [entry])) entry.configuration.active := by
  induction h generalizing before with
  | nil => exact absurd hsplit (by simp)
  | began _ ih =>
    obtain ⟨rfl, rfl⟩ | ⟨earlier, rfl, hrest⟩ := split_cons hsplit
    · exact absurd rfl (hentry _ _)
    · show Replay _ (Journal.steps (earlier ++ [entry])) _
      exact ih hrest
  | took move hnoted _ ih =>
    obtain ⟨rfl, rfl⟩ | ⟨earlier, rfl, hrest⟩ := split_cons hsplit
    · exact hnoted ▸ .cons move .nil
    · exact .cons move (ih hrest)
  | ran move hnoted hnoted' _ ih =>
    obtain ⟨rfl, rfl⟩ | ⟨earlier, rfl, hrest⟩ := split_cons hsplit
    · exact hnoted ▸ .cons move .nil
    · obtain ⟨rfl, rfl⟩ | ⟨earlier', rfl, hrest'⟩ := split_cons hrest
      · exact hnoted' ▸ .cons move .nil
      · have hlater := ih hrest'
        exact .cons move hlater
  | answered hnoted _ ih =>
    obtain ⟨rfl, rfl⟩ | ⟨earlier, rfl, hrest⟩ := split_cons hsplit
    · exact hnoted ▸ .nil
    · show Replay _ (Journal.steps (earlier ++ [entry])) _
      exact ih hrest
  | told hnoted _ ih =>
    obtain ⟨rfl, rfl⟩ | ⟨earlier, rfl, hrest⟩ := split_cons hsplit
    · exact hnoted ▸ .nil
    · show Replay _ (Journal.steps (earlier ++ [entry])) _
      exact ih hrest

/-- **An action begins as soon as its step has been taken.** -/
theorem exists_took (h : Traced active journal last) {before after : Journal L}
    {entry : Journal.Entry L} {name : String} {scope : Scope}
    (hsplit : journal = before ++ entry :: after) (hentry : entry.happening = .ran name scope) :
    ∃ earlier took, before = earlier ++ [took] ∧ took.happening = .took scope.step := by
  induction h generalizing before with
  | nil => exact absurd hsplit (by simp)
  | began _ ih | took _ _ _ ih | answered _ _ ih | told _ _ ih =>
    obtain ⟨rfl, rfl⟩ | ⟨earlier, rfl, hrest⟩ := split_cons hsplit
    · exact nomatch hentry
    · obtain ⟨earlier', took, rfl, htook⟩ := ih hrest
      exact ⟨_ :: earlier', took, rfl, htook⟩
  | ran _ _ _ _ ih =>
    obtain ⟨rfl, rfl⟩ | ⟨earlier, rfl, hrest⟩ := split_cons hsplit
    · exact nomatch hentry
    · obtain ⟨rfl, rfl⟩ | ⟨earlier', rfl, hrest'⟩ := split_cons hrest
      · obtain ⟨rfl, rfl⟩ := Happening.ran.inj hentry
        exact ⟨[], _, rfl, rfl⟩
      · obtain ⟨earlier'', took, rfl, htook⟩ := ih hrest'
        exact ⟨_ :: _ :: earlier'', took, rfl, htook⟩

/-- The listeners are told while the leaf is active. -/
theorem of_tell {machine : Machine C L} {leaf : Path} (h : machine.active = some leaf)
    (number : Nat) (event : String) :
    Traced (some leaf) (machine.tell number leaf event) (some leaf) := by
  unfold Machine.tell
  induction machine.subscribers.listeners with
  | nil => exact .nil
  | cons _ _ ih => exact .told h ih

end Traced

/-! ## The journal of a course -/

/-- **What the journal of an activity traces.** A walk is traced from wherever its
steps lead on from, since a start leads on from nothing. -/
def Activity.Traces : Activity C → Machine C L → Outcome C L → Prop
  | .act _ _ _, machine, outcome | .send _, machine, outcome =>
    Traced machine.active outcome.journal outcome.machine.active
  | .walk occasion steps, machine, outcome =>
    machine.status = .running → ∀ active, Replay active steps (some occasion.leaf) →
      Traced active outcome.journal outcome.machine.active
  | .start, machine, outcome =>
    outcome.Refused machine ∨ Traced none outcome.journal outcome.machine.active

/-- **Every course is traced.** -/
theorem Course.traces {activity : Activity C} {machine : Machine C L} {outcome : Outcome C L}
    (h : Course activity machine outcome) : activity.Traces machine outcome := by
  induction h with
  | done => exact .nil
  | read _ ih => exact ih
  | write _ ih => exact ih
  | ask _ _ ihasked ihrest => exact (ihasked.append (.answered rfl .nil)).append ihrest
  | arrive =>
    -- no step is left, so the leaf is active already
    intro _ active hreplay
    cases hreplay
    exact .of_tell rfl _ _
  | pass _ _ ih =>
    intro hrunning active hreplay
    cases hreplay with
    | cons move replay =>
      obtain rfl := move.arrival_eq
      exact .took move rfl (ih hrunning _ replay)
  | @perform _ step _ _ machine acted _ _ action same _ ihaction ihrest =>
    intro hrunning active hreplay
    cases hreplay with
    | cons move replay =>
      obtain rfl := move.arrival_eq
      -- an action that begins no dispatch leaves the machine where the step arrived
      have hsame : acted.machine.toConfiguration
          = (machine.movedTo step.arrival).toConfiguration := action.toConfiguration_eq same
      refine .ran move rfl rfl (ihaction.append ?_)
      rw [congrArg Configuration.active hsame]
      exact ihrest ((congrArg Configuration.status hsame).trans hrunning) _ replay
  | overtaken _ _ _ ihaction =>
    intro _ active hreplay
    cases hreplay with
    | cons move replay =>
      obtain rfl := move.arrival_eq
      exact .ran move rfl rfl ihaction
  | unready _ => exact .nil
  | unhandled _ _ _ => exact .nil
  | dispatch _ active ok _ ih =>
    exact .began (ih rfl _ (active ▸ (Tree.leads_of_transition ok).replay))
  | alreadyRunning _ => exact .inl ⟨_, rfl⟩
  | leafless _ _ => exact .inl ⟨_, rfl⟩
  | start _ ok _ ih => exact .inr (.began (ih rfl none (Tree.leads_of_start ok).replay))

/-! ## Runs -/

namespace Episode

variable {episode : Episode C L}

/-- A start that succeeded is traced from nothing, and any other call from where it
found the machine. -/
theorem Occurs.traced (h : episode.Occurs) :
    Traced (if episode.isStart then none else episode.before.active) episode.journal
      episode.after.active := by
  cases h using Occurs.byCourse with
  | start _ course =>
    obtain ⟨-, rfl⟩ | ⟨-, -, leaf, hok, -⟩ := course.start_cases
    · exact .nil
    · obtain ⟨error, rfl⟩ | htraced := course.traces
      · exact nomatch hok
      · simpa [isStart, hok] using htraced
  | send _ course => exact course.traces
  | change change machine =>
    show Traced machine.active [] (machine.change change).active
    rw [Machine.active_change]
    exact .nil

/-- **The root is entered first in a start**, and is not touched otherwise. -/
theorem Occurs.root (h : episode.Occurs) :
    if episode.isStart then
      ∃ rest, episode.journal.steps = ⟨.entry, .root⟩ :: rest ∧ ∀ step ∈ rest, step.node ≠ .root
    else ∀ step ∈ episode.journal.steps, step.node ≠ .root := by
  have hreplay := h.traced.replay
  cases h using Occurs.byCourse with
  | @start _ machine outcome _ course =>
    obtain ⟨-, rfl⟩ | ⟨-, -, leaf, hok, hrests⟩ := course.start_cases
    · exact fun _ hmem => nomatch hmem
    · rw [isStart_of_ok hok, if_pos rfl, hrests.active] at hreplay
      rw [isStart_of_ok hok, if_pos rfl]
      obtain ⟨rest, hsteps, hrest⟩ := hreplay.eq_cons_of_none
      exact ⟨rest, hsteps, hrest.node_ne_root⟩
  | @send _ event machine outcome _ course =>
    show ∀ step ∈ outcome.journal.steps, step.node ≠ .root
    have hsteps : Replay machine.active outcome.journal.steps outcome.machine.active := hreplay
    cases course with
    | unready _ => exact fun _ hmem => nomatch hmem
    | unhandled _ _ _ => exact fun _ hmem => nomatch hmem
    | dispatch _ active _ _ => exact (active ▸ hsteps).node_ne_root
  | change => exact fun _ hmem => nomatch hmem

end Episode

/-- **The discipline of a stack**, of a journal from the beginning up to an active
path. -/
structure Journal.Disciplined (journal : Journal L) (active : Option Path) : Prop where
  /-- The steps lead on from one another: the root is entered first, every other
  node from its parent, and only the innermost active node is exited. -/
  replay : Replay none journal.steps active
  /-- Each entry notes where the replay stands by then. -/
  noted : ∀ before entry after, journal = before ++ entry :: after →
    (∀ occasion steps, entry.happening ≠ .began occasion steps) →
      Replay none (steps (before ++ [entry])) entry.configuration.active
  /-- An action begins as soon as its step has been taken. -/
  ran : ∀ before entry after name scope, journal = before ++ entry :: after →
    entry.happening = .ran name scope →
      ∃ earlier took, before = earlier ++ [took] ∧ took.happening = .took scope.step
  /-- Up to any point, a node has been entered as often as exited, and once more
  exactly if it is active then. -/
  balanced : ∀ before after, journal.steps = before ++ after →
    ∃ path, Replay none before path ∧ ∀ node,
      before.count ⟨.entry, node⟩ = before.count ⟨.exit, node⟩ + level path node

theorem Traced.disciplined {journal : Journal L} {active : Option Path}
    (h : Traced none journal active) : journal.Disciplined active := by
  refine ⟨h.replay, fun _ _ _ => h.noted, fun _ _ _ _ _ => h.exists_took, ?_⟩
  intro before after hsplit
  have hreplay : Replay none (before ++ after) active := hsplit ▸ h.replay
  obtain ⟨path, hbefore, -⟩ := hreplay.exists_middle
  refine ⟨path, hbefore, fun node => ?_⟩
  have hcount := hbefore.count_entry node
  have hnone : level none node = 0 := rfl
  omega

namespace Run

variable {machine last : Machine C L} {episodes : List (Episode C L)}

theorem traced (run : Run machine episodes last) (h : machine.active = none) :
    Traced none (sinceStart episodes) last.active := by
  induction run with
  | nil => exact h ▸ .nil
  | @concat episodes episode run occurs ih =>
    have htraced := occurs.traced
    rw [sinceStart_concat]
    cases hstart : episode.isStart with
    | true => simpa [hstart] using htraced
    | false =>
      rw [hstart] at htraced
      exact ih.append htraced

/-- **All steps since the last start have the discipline of a stack**, whichever
dispatches they belong to, and lead to the path that is active. The root is
entered first by the start, and not touched by any other step. -/
theorem stack_discipline (built : machine.Built) (run : Run machine episodes last) :
    (sinceStart episodes).Disciplined last.active
      ∧ ∀ episode ∈ episodes,
        if episode.isStart then
          ∃ rest, episode.journal.steps = ⟨.entry, .root⟩ :: rest
            ∧ ∀ step ∈ rest, step.node ≠ .root
        else ∀ step ∈ episode.journal.steps, step.node ≠ .root := by
  refine ⟨(run.traced built.active_eq).disciplined, ?_⟩
  exact run.forall_mem built.resting fun _ occurs _ _ => occurs.root

/-- The steps of the lamp lead to where it is dim, those of turning it on together
with those of its fading. -/
theorem stack_discipline_lamp : ∃ episodes, Run Lamp.machine episodes Lamp.dim
    ∧ (sinceStart episodes).Disciplined (some ⟨["on", "dim"]⟩) := by
  obtain ⟨episodes, run, -⟩ := Lamp.exists_run
  exact ⟨episodes, run, (stack_discipline Lamp.built run).1⟩

end Run

end Statechart
