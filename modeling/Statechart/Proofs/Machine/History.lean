import Statechart.Proofs.Machine.Chronicle
import Statechart.Proofs.Machine.Refusal

/-!
# The history at every moment

The history of a machine is overwritten while calls are still being carried out, and
a call need not come to an end. So the chronicle of a machine (`Chronicle`) is followed
here up to any moment: between two calls, and wherever an action has the word, however
deep its dispatch is nested (`Machine.Past`). These are the moments at which a machine may
be called (`Machine.reachable_iff_exists_past`).

`Machine.Past.remembers` puts together what is true of the history at such a moment, and
of the calls that are made then.
-/

namespace Statechart

variable {C L : Type}

open Machine (Outcome)

namespace Stretch

variable {activity : Activity C} {machine now : Machine C L} {journal : Journal L}

/-- **Every stretch goes on from a chronicle**, as courses do. -/
theorem chronicles (h : Stretch activity machine journal now) :
    activity.Chronicles machine journal now := by
  induction h with
  | now => exact fun _ hbefore => hbefore.append_nil
  | read _ ih => exact ih
  | write _ ih => exact ih
  | asked _ ih => exact ih
  | answered asked _ ih => exact .ask asked asked.chronicles ih
  | pass _ _ ih => exact .pass ih
  | action _ _ ih => exact .action ih
  | perform _ action same _ ih => exact .perform action same action.chronicles ih
  | dispatch _ active ok _ ih => exact .dispatch active ok ih
  | start _ ok _ ih => exact .start ok ih

end Stretch

namespace Machine

/-- **A moment in the life of a machine**, with all that has happened since the last
start. -/
inductive Past (machine : Machine C L) : Journal L → Machine C L → Prop where
  /-- Between two calls. -/
  | between {episodes : List (Episode C L)} {now : Machine C L} (run : Run machine episodes now) :
    machine.Past (sinceStart episodes) now
  /-- While the machine is started. -/
  | starting {episodes : List (Episode C L)} {last now : Machine C L} {journal : Journal L}
    (run : Run machine episodes last) (stretch : Stretch .start last journal now) :
    machine.Past journal now
  /-- While an event is sent to it. -/
  | sending {episodes : List (Episode C L)} {last now : Machine C L} {event : String}
    {journal : Journal L} (run : Run machine episodes last)
    (stretch : Stretch (.send event) last journal now) :
    machine.Past (sinceStart episodes ++ journal) now

/-- **The moments in the life of a machine are those at which it may be called.** -/
theorem reachable_iff_exists_past {machine now : Machine C L} :
    machine.Reachable now ↔ ∃ journal, machine.Past journal now := by
  constructor
  · intro h
    cases h with
    | between run => exact ⟨_, .between run⟩
    | during run during =>
      obtain ⟨journal, stretch⟩ | ⟨event, journal, stretch⟩ := during
      · exact ⟨_, .starting run stretch⟩
      · exact ⟨_, .sending run stretch⟩
  · rintro ⟨journal, past⟩
    cases past with
    | between run => exact .between run
    | starting run stretch => exact .during run (.inl ⟨_, stretch⟩)
    | sending run stretch => exact .during run (.inr ⟨_, _, stretch⟩)

@[simp] theorem history_change {machine : Machine C L} {change : Change C L} :
    (machine.change change).history = machine.history := by
  cases change <;> rfl

end Machine

/-! ## The history at a moment -/

/-- **A machine keeps a chronicle** between its calls. -/
theorem Run.goesOn {machine last : Machine C L} {episodes : List (Episode C L)}
    (built : machine.Built) (run : Run machine episodes last) :
    last.GoesOn last.tree (sinceStart episodes) := by
  induction run with
  | nil =>
    obtain ⟨_, _, _, rfl⟩ := built.eq_new
    exact .new _ _
  | @concat episodes episode run occurs ih =>
    rw [sinceStart_concat]
    cases occurs using Episode.Occurs.byCourse with
    | @start _ machine outcome _ course =>
      obtain ⟨-, rfl⟩ | ⟨stopped, -, leaf, hok, -⟩ := course.start_cases
      · exact ih.append_nil
      · rw [if_pos (Episode.isStart_of_ok hok)]
        show outcome.machine.GoesOn outcome.machine.tree outcome.journal
        rw [course.keeps.tree]
        exact course.chronicles stopped
    | @send _ event machine outcome _ course =>
      show outcome.machine.GoesOn outcome.machine.tree (sinceStart episodes ++ outcome.journal)
      rw [course.keeps.tree]
      exact course.chronicles _ ih
    | change change machine =>
      show (machine.change change).GoesOn (machine.change change).tree (sinceStart episodes ++ [])
      unfold Machine.GoesOn
      simp only [Machine.active_change, Machine.history_change, Machine.tree_change,
        Machine.dispatches_change]
      exact ih.append_nil

namespace Machine

variable {machine now : Machine C L} {journal : Journal L}

/-- **A machine keeps a chronicle** up to every moment. -/
theorem Past.goesOn (built : machine.Built) (past : machine.Past journal now) :
    now.GoesOn now.tree journal := by
  cases past with
  | between run => exact run.goesOn built
  | starting run stretch =>
    rw [stretch.keeps.tree]
    cases stretch with
    | start stopped ok walk => exact (Stretch.start stopped ok walk).chronicles stopped
  | sending run stretch =>
    rw [stretch.keeps.tree]
    exact stretch.chronicles _ (run.goesOn built)

/-- **A call begins with a dispatch**, which leaves what the history is from then on. -/
def Outcome.Opens (outcome : Outcome C L) (machine : Machine C L) (occasion : Occasion) : Prop :=
  ∃ steps noted rest,
    outcome.journal = ⟨machine.dispatches + 1, .began occasion steps, noted⟩ :: rest
      ∧ noted.history = occasion.departure

/-- A send that succeeds begins with a dispatch that leaves the active path. -/
theorem exists_opens_of_send {limit : Nat} {event : String} {outcome : Outcome C L} {leaf : Path}
    (returns : machine.send limit event = some outcome) (hok : outcome.result = .ok leaf) :
    ∃ current target, machine.active = some current
      ∧ outcome.Opens machine ⟨event, target, some ⟨current, event⟩⟩ := by
  cases course_send_iff.mpr ⟨limit, returns⟩ with
  | unready _ => exact nomatch hok
  | unhandled _ _ _ => exact nomatch hok
  | dispatch _ active _ _ => exact ⟨_, _, active, _, _, _, rfl, rfl⟩

/-- A start that succeeds begins with a dispatch that leaves nothing. -/
theorem exists_opens_of_start {limit : Nat} {outcome : Outcome C L} {leaf : Path}
    (returns : machine.start limit = some outcome) (hok : outcome.result = .ok leaf) :
    ∃ target, outcome.Opens machine ⟨startEvent, target, none⟩ := by
  cases course_of_start returns with
  | alreadyRunning _ => exact nomatch hok
  | leafless _ _ => exact nomatch hok
  | start _ _ _ => exact ⟨_, _, _, _, rfl, rfl⟩

/-- **The history always describes the right dispatch.** At every moment in the life of a
machine, between two calls and wherever an action has the word, its history is what the
dispatch that began last has left: nothing if that was the start, and otherwise the event
that began it and the path that was active right before, half exited or half entered as it
may be. So it was at every entry since the start, while each action was told what its own
dispatch is about, whatever dispatches had begun since; no two of them have the same
number. An event that is sent at this moment leaves the history alone if it is refused,
and otherwise begins with a dispatch that leaves the active path; a start that succeeds
clears it, and changes leave it alone. Wherever the machine may be called, it is at such a
moment. -/
theorem Past.remembers (built : machine.Built) (past : machine.Past journal now) :
    Chronicle now.tree journal now.active now.history now.dispatches
      ∧ (∀ limit event outcome, now.send limit event = some outcome →
        (∀ error, outcome.result = .error error → outcome.machine.history = now.history)
          ∧ ∀ leaf, outcome.result = .ok leaf → ∃ current target, now.active = some current
            ∧ outcome.Opens now ⟨event, target, some ⟨current, event⟩⟩)
      ∧ (∀ limit outcome, now.start limit = some outcome →
        (∀ error, outcome.result = .error error → outcome.machine.history = now.history)
          ∧ ∀ leaf, outcome.result = .ok leaf →
            ∃ target, outcome.Opens now ⟨startEvent, target, none⟩)
      ∧ (∀ change, (now.change change).history = now.history)
      ∧ ∀ called, machine.Reachable called ↔ ∃ journal, machine.Past journal called := by
  refine ⟨past.goesOn built, fun limit event outcome returns => ⟨fun error herror => ?_, ?_⟩,
    fun limit outcome returns => ⟨fun error herror => ?_, ?_⟩, fun _ => history_change,
    fun _ => reachable_iff_exists_past⟩
  · have course := course_send_iff.mpr ⟨limit, returns⟩
    obtain rfl := Outcome.eq_refuse course.settles herror
    rfl
  · exact fun _ => exists_opens_of_send returns
  · obtain rfl := Outcome.eq_refuse (course_of_start returns).settles herror
    rfl
  · exact fun _ => exists_opens_of_start returns

/-- The lamp remembers its fading, which left `on` before any of the two states below it
was entered. While it settled it remembered that it had been turned on. -/
theorem Past.remembers_lamp : (∃ episodes, Run Lamp.machine episodes Lamp.dim
      ∧ (sinceStart episodes).departure? = some ⟨⟨["on"]⟩, "fade"⟩)
    ∧ ∃ journal, Lamp.machine.Past journal Lamp.settling
      ∧ journal.departure? = some ⟨⟨["off"]⟩, "flip"⟩ := by
  obtain ⟨episodes, run, -⟩ := Lamp.exists_run
  obtain ⟨hdim, -, -, -, hmoments⟩ := remembers Lamp.built (.between run)
  obtain ⟨journal, past⟩ := (hmoments Lamp.settling).mp Lamp.reachable_settling
  obtain ⟨hsettling, -⟩ := remembers Lamp.built past
  exact ⟨⟨episodes, run, hdim.history.symm⟩, journal, past, hsettling.history.symm⟩

end Machine

end Statechart
