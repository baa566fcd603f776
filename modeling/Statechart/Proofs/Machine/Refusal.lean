import Statechart.Proofs.Machine.Rest

/-!
# Why a call is refused

Whatever is wrong with a definition shows when the machine is made. Afterwards
there are three reasons for a call to fail, and each of them lies in the moment of
the call: a machine that is running cannot be started, a machine that is stopped
takes no events, and no node at or above the active path has a transition for the
event (`Machine.start_error_iff`, `Machine.send_error_iff`).

For sends this needs to know that the active path of a running machine is a node
of its tree. That is so between two calls, where it is a leaf, and also at every
moment at which an action has the word, where it may be any node
(`Stretch.stands`).
-/

namespace Statechart

variable {C L : Type}

open Machine (Outcome)

namespace Machine

variable {machine : Machine C L} {error : MachineError}

/-- **A machine stands at a node** of its tree: it is running, and the node is
active. -/
def Stands (machine : Machine C L) : Prop :=
  machine.status = .running ∧ ∃ path, machine.active = some path ∧ machine.tree.HasNode path

/-- **A machine is sound** if, whenever it is running, it stands at a node. -/
def Sound (machine : Machine C L) : Prop := machine.status = .running → machine.Stands

theorem RestsAt.stands {leaf : Path} (h : machine.RestsAt leaf) : machine.Stands :=
  ⟨h.running, leaf, h.active, h.hasLeaf.hasNode⟩

theorem Resting.sound (h : machine.Resting) : machine.Sound := by
  intro hrunning
  obtain ⟨hstopped, -⟩ | ⟨leaf, hactive, hleaf⟩ := h
  · exact nomatch hrunning.symm.trans hstopped
  · exact ⟨hrunning, leaf, hactive, hleaf.hasNode⟩

/-! ## The reasons -/

/-- **A start fails exactly if the machine is running.** -/
theorem start_error_iff (limit : Nat) :
    (∃ outcome, machine.start limit = some outcome ∧ outcome.result = .error error)
      ↔ machine.status = .running ∧ error = .alreadyRunning := by
  constructor
  · rintro ⟨outcome, returns, herror⟩
    obtain ⟨hrunning, rfl⟩ | ⟨-, -, leaf, hok, -⟩ := (course_of_start returns).start_cases
    · exact ⟨hrunning, (Except.error.inj herror).symm⟩
    · exact nomatch hok.symm.trans herror
  · rintro ⟨hrunning, rfl⟩
    refine ⟨machine.refuse .alreadyRunning, ?_, rfl⟩
    unfold Machine.start
    rw [hrunning]

/-- **The reasons to refuse an event**: there are two of them. -/
inductive Refuses (machine : Machine C L) (event : String) : MachineError → Prop where
  /-- The machine is stopped. -/
  | stopped (stopped : machine.status = .stopped) : Refuses machine event .notRunning
  /-- No node at or above the active path has a transition for the event. -/
  | unhandled {path : Path} (running : machine.status = .running)
    (active : machine.active = some path) (unhandled : ¬ machine.tree.Handles path event) :
    Refuses machine event (.noMatchingTransition event path.label)

/-- Where there is a reason, the event is refused for it. -/
theorem Refuses.send_eq {event : String} (h : machine.Refuses event error)
    (hsound : machine.Sound) (limit : Nat) :
    machine.send limit event = some (machine.refuse error) := by
  unfold Machine.send sendWith
  cases h with
  | stopped stopped => rw [stopped]
  | @unhandled path running active unhandled =>
    obtain ⟨-, found, hfound, hnode⟩ := hsound running
    obtain rfl := Option.some.inj (hfound.symm.trans active)
    have hrefused := Tree.transition_eq_error hnode unhandled
    simp only [running, active, hrefused]

end Machine

open Machine

/-- Where an event is refused, there is a reason. -/
theorem Course.refuses {event : String} {machine : Machine C L} {outcome : Outcome C L}
    {error : MachineError} (h : Course (.send event) machine outcome) (hsound : machine.Sound)
    (herror : outcome.result = .error error) : machine.Refuses event error := by
  cases h with
  | unready unready =>
    obtain rfl := Except.error.inj herror
    cases hstatus : machine.status with
    | stopped => exact .stopped hstatus
    | running =>
      -- a machine that is running is somewhere
      obtain ⟨-, path, hactive, -⟩ := hsound hstatus
      obtain hstopped | hnone := unready
      · exact nomatch hstatus.symm.trans hstopped
      · exact nomatch hactive.symm.trans hnone
  | @unhandled _ current _ _ running active refused =>
    obtain rfl := Except.error.inj herror
    obtain ⟨-, found, hfound, hnode⟩ := hsound running
    obtain rfl := Option.some.inj (hfound.symm.trans active)
    by_cases hhandles : machine.tree.Handles found event
    · obtain ⟨transition, hok, -⟩ := Tree.transition_eq_ok hnode hhandles
      exact nomatch hok.symm.trans refused
    · obtain rfl := Except.error.inj
        (refused.symm.trans (Tree.transition_eq_error hnode hhandles))
      exact .unhandled running active hhandles
  | dispatch _ _ ok walk =>
    obtain ⟨leaf, hleaf, -⟩ := walk.settles rfl (Tree.leads_of_transition ok).hasLeaf
    exact nomatch hleaf.symm.trans herror

/-- **An event is refused exactly if there is a reason**, and for that reason. -/
theorem Course.result_eq_error_iff {event : String} {machine : Machine C L}
    {outcome : Outcome C L} {error : MachineError} (h : Course (.send event) machine outcome)
    (hsound : machine.Sound) : outcome.result = .error error ↔ machine.Refuses event error := by
  refine ⟨h.refuses hsound, fun hrefuses => ?_⟩
  obtain ⟨limit, returns⟩ := course_send_iff.mp h
  rw [hrefuses.send_eq hsound, Option.some.injEq] at returns
  rw [← returns]
  rfl

/-- **A send fails exactly if there is a reason**, whatever the limit is. -/
theorem Machine.send_error_iff {machine : Machine C L} {error : MachineError}
    (h : machine.Sound) (limit : Nat) (event : String) :
    (∃ outcome, machine.send limit event = some outcome ∧ outcome.result = .error error)
      ↔ machine.Refuses event error := by
  constructor
  · rintro ⟨outcome, returns, herror⟩
    exact (course_send_iff.mpr ⟨limit, returns⟩).refuses h herror
  · exact fun hrefuses => ⟨_, hrefuses.send_eq h limit, rfl⟩

/-! ## Moments -/

/-- What is known before an activity of a moment in it. -/
def Activity.Proper : Activity C → Machine C L → Prop
  | .act _ _ _, machine => machine.Stands
  | .walk occasion steps, machine =>
    machine.status = .running ∧ (∀ step ∈ steps, machine.tree.HasNode step.arrival)
      ∧ machine.tree.HasLeaf occasion.leaf
  | _, _ => True

/-- **Whenever an action has the word, the machine stands at a node.** -/
theorem Stretch.stands {activity : Activity C} {machine now : Machine C L} {journal : Journal L}
    (h : Stretch activity machine journal now) (hproper : activity.Proper machine) :
    now.Stands := by
  induction h with
  | now => exact hproper
  | read _ ih => exact ih hproper
  | write _ ih => exact ih hproper
  | asked _ ih => exact ih trivial
  | answered asked _ ih =>
    refine ih ?_
    obtain ⟨error, rfl⟩ | ⟨-, leaf, -, hrests⟩ := asked.settles
    · exact hproper
    · exact hrests.stands
  | pass _ _ ih =>
    obtain ⟨hrunning, hnodes, hleaf⟩ := hproper
    exact ih ⟨hrunning, (List.forall_mem_cons.mp hnodes).2, hleaf⟩
  | @action _ step _ _ _ _ _ _ _ ih =>
    -- the action begins where its step has arrived, in the tree
    obtain ⟨hrunning, hnodes, -⟩ := hproper
    exact ih ⟨hrunning, step.arrival, rfl, (List.forall_mem_cons.mp hnodes).1⟩
  | perform _ action same _ ih =>
    obtain ⟨hrunning, hnodes, hleaf⟩ := hproper
    refine ih ⟨?_, ?_, ?_⟩
    · exact (congrArg Configuration.status (action.toConfiguration_eq same)).trans hrunning
    · rw [action.keeps.tree]
      exact (List.forall_mem_cons.mp hnodes).2
    · rw [action.keeps.tree]
      exact hleaf
  | dispatch _ _ ok _ ih =>
    have hleads := Tree.leads_of_transition ok
    exact ih ⟨rfl, hleads.hasNode, hleads.hasLeaf⟩
  | start _ ok _ ih =>
    have hleads := Tree.leads_of_start ok
    exact ih ⟨rfl, hleads.hasNode, hleads.hasLeaf⟩

theorem Machine.During.stands {machine now : Machine C L} (h : machine.During now) :
    now.Stands := by
  obtain ⟨journal, stretch⟩ | ⟨event, journal, stretch⟩ := h
  · exact stretch.stands trivial
  · exact stretch.stands trivial

/-! ## Everywhere a call can be made -/

/-- **A machine as it may be called**: between two calls of a run, or at a moment
of the next call. -/
inductive Machine.Reachable (machine : Machine C L) : Machine C L → Prop where
  /-- By its user. -/
  | between {episodes : List (Episode C L)} {last : Machine C L}
    (run : Run machine episodes last) : Reachable machine last
  /-- By an action. -/
  | during {episodes : List (Episode C L)} {last now : Machine C L}
    (run : Run machine episodes last) (during : last.During now) : Reachable machine now

namespace Machine

theorem refuses_iff {machine : Machine C L} {event : String} {error : MachineError} :
    machine.Refuses event error ↔ (machine.status = .stopped ∧ error = .notRunning)
      ∨ (machine.status = .running ∧ ∃ path, machine.active = some path
        ∧ ¬ machine.tree.Handles path event ∧ error = .noMatchingTransition event path.label) := by
  constructor
  · intro h
    cases h with
    | stopped stopped => exact .inl ⟨stopped, rfl⟩
    | unhandled running active unhandled => exact .inr ⟨running, _, active, unhandled, rfl⟩
  · rintro (⟨stopped, rfl⟩ | ⟨running, path, active, unhandled, rfl⟩)
    · exact .stopped stopped
    · exact .unhandled running active unhandled

namespace Reachable

variable {machine now : Machine C L}

theorem tree_eq (h : machine.Reachable now) : now.tree = machine.tree := by
  cases h with
  | between run => exact run.tree_eq
  | during run during => exact during.keeps.tree.trans run.tree_eq

theorem sound (h : machine.Reachable now) (hrest : machine.Resting) : now.Sound := by
  cases h with
  | between run => exact (run.resting hrest).sound
  | during _ during => exact fun _ => during.stands

end Reachable

end Machine

/-- What an action was answered, it was answered while the machine was running. -/
theorem Episode.Occurs.answered {episode : Episode C L} (h : episode.Occurs)
    {entry : Journal.Entry L} (hmem : entry ∈ episode.journal) {name event : String}
    {asked : Configuration} {reply : Except MachineError Path}
    (heq : entry.happening = .answered name event asked reply) :
    asked.status = .running ∧ ∃ path, asked.active = some path
      ∧ ∀ error, reply = .error error ↔ ¬ episode.before.tree.Handles path event
        ∧ error = .noMatchingTransition event path.label := by
  obtain ⟨now, inner, hduring, hcourse, rfl, rfl, -⟩ := h.exists_during hmem heq
  obtain ⟨hrunning, path, hactive, -⟩ := hduring.stands
  refine ⟨hrunning, path, hactive, fun error => ?_⟩
  rw [hcourse.result_eq_error_iff fun _ => hduring.stands, Machine.refuses_iff, hrunning, hactive,
    hduring.keeps.tree]
  constructor
  · rintro (⟨hstopped, -⟩ | ⟨-, found, hfound, hreason⟩)
    · exact nomatch hstopped
    · exact Option.some.inj hfound ▸ hreason
  · exact fun hreason => .inr ⟨rfl, path, rfl, hreason⟩

/-- **Errors in a definition show when the machine is made and never later.**
Wherever a machine may be called, a start fails exactly if it is running, and an
event is refused exactly if the machine is stopped or no node at or above the
active path has a transition for the event; whatever an action has been answered
in a run, it was refused only for the second of these reasons. -/
theorem Machine.Built.refusals {machine : Machine C L} (built : machine.Built) :
    (∀ now, machine.Reachable now → ∀ limit error,
        (∃ outcome, now.start limit = some outcome ∧ outcome.result = .error error)
          ↔ now.status = .running ∧ error = .alreadyRunning)
      ∧ (∀ now, machine.Reachable now → ∀ limit event error,
        (∃ outcome, now.send limit event = some outcome ∧ outcome.result = .error error)
          ↔ (now.status = .stopped ∧ error = .notRunning)
            ∨ (now.status = .running ∧ ∃ path, now.active = some path
              ∧ ¬ machine.tree.Handles path event
              ∧ error = .noMatchingTransition event path.label))
      ∧ ∀ episodes last, Run machine episodes last → ∀ episode ∈ episodes,
        ∀ entry ∈ episode.journal, ∀ name event asked reply,
          entry.happening = .answered name event asked reply →
            asked.status = .running ∧ ∃ path, asked.active = some path
              ∧ ∀ error, reply = .error error ↔ ¬ machine.tree.Handles path event
                ∧ error = .noMatchingTransition event path.label := by
  refine ⟨fun now _ limit error => start_error_iff limit, ?_, ?_⟩
  · intro now hreachable limit event error
    rw [send_error_iff (hreachable.sound built.resting), refuses_iff, hreachable.tree_eq]
  · intro episodes last run
    refine run.forall_mem built.resting fun episode occurs _ htree => ?_
    intro entry hmem name event asked reply heq
    exact htree ▸ occurs.answered hmem heq

namespace Lamp

/-- The lamp while it settles: no more than `on` is active yet. -/
def settling : Machine Unit String :=
  { machine with
    status := .running
    active := some ⟨["on"]⟩
    history := some ⟨⟨["off"]⟩, "flip"⟩
    dispatches := 2 }

/-- The action of the lamp finds it so when it is turned on. -/
theorem reachable_settling : machine.Reachable settling := by
  have hstart : (machine.start 1).map Machine.Outcome.machine = some off := rfl
  obtain ⟨started, hstarted, heq⟩ := Option.map_eq_some_iff.mp hstart
  have hduring : started.machine.During settling := by
    rw [heq]
    exact .inr ⟨"flip", _, .dispatch rfl rfl rfl (.pass rfl (.action rfl .now))⟩
  exact .during (.concat .nil (.start hstarted)) hduring

end Lamp

/-- While the lamp settles, no more than `on` is active, and it cannot glow. -/
theorem Machine.Built.refusals_lamp : ∃ now, Lamp.machine.Reachable now
    ∧ now.active = some ⟨["on"]⟩ ∧ ∃ outcome, now.send 0 "glow" = some outcome
      ∧ outcome.result = .error (.noMatchingTransition "glow" "on") := by
  have hreachable := Lamp.reachable_settling
  refine ⟨_, hreachable, rfl, (refusals Lamp.built).2.1 _ hreachable 0 _ _ |>.mpr ?_⟩
  exact .inr ⟨rfl, _, rfl, Tree.handler?_eq_none_iff.mp rfl, rfl⟩

end Statechart
