import Statechart.Proofs.Machine.Moment
import Statechart.Proofs.Machine.Run
import Statechart.Proofs.Tree.Transition

/-!
# Machines rest at leaves

While a dispatch is carried out the active path may be any node of the tree: the
parent of a node that has been exited, or a node whose children are still to be
entered. A dispatch that is overtaken is left in such a place. Even so, what a
call leaves active is a leaf, because a dispatch is overtaken only by one that has
come to an end before it goes on.

The induction is on the course (`Course.settles`). It has to say of an action
that it either leaves the machine exactly where it was or has begun a dispatch and
leaves the machine at a leaf; the number of dispatches tells which.
-/

namespace Statechart

variable {C L : Type}

open Machine (Outcome)

namespace Machine

/-- **A machine rests at a leaf**: it is running, and the leaf is active. -/
structure RestsAt (machine : Machine C L) (leaf : Path) : Prop where
  running : machine.status = .running
  active : machine.active = some leaf
  hasLeaf : machine.tree.HasLeaf leaf

/-- The leaf stays a leaf, and active, while the configuration is the same. -/
theorem RestsAt.of_eq {machine later : Machine C L} {leaf : Path} (h : machine.RestsAt leaf)
    (hkeeps : machine.Keeps later) (hsame : later.toConfiguration = machine.toConfiguration) :
    later.RestsAt leaf :=
  ⟨(congrArg Configuration.status hsame).trans h.running,
    (congrArg Configuration.active hsame).trans h.active, hkeeps.tree ▸ h.hasLeaf⟩

theorem RestsAt.leftAt_eq {machine : Machine C L} {leaf : Path} (h : machine.RestsAt leaf) :
    machine.leftAt = .ok leaf := by
  unfold leftAt
  rw [h.active]

/-- **A call has done something**: it has begun a dispatch, and its answer is the
leaf at which the machine rests. -/
def Outcome.Arrives (outcome : Outcome C L) (machine : Machine C L) : Prop :=
  machine.dispatches < outcome.machine.dispatches
    ∧ ∃ leaf, outcome.result = .ok leaf ∧ outcome.machine.RestsAt leaf

/-- **A call has been refused**: it has done nothing. -/
def Outcome.Refused (outcome : Outcome C L) (machine : Machine C L) : Prop :=
  ∃ error, outcome = machine.refuse error

end Machine

/-- **Where an activity leaves a machine.** -/
def Activity.Settles : Activity C → Machine C L → Outcome C L → Prop
  | .act _ _ _, machine, outcome =>
    (outcome.machine.toConfiguration = machine.toConfiguration
      ∧ outcome.machine.dispatches = machine.dispatches) ∨ outcome.Arrives machine
  | .walk occasion _, machine, outcome =>
    machine.status = .running → machine.tree.HasLeaf occasion.leaf →
      ∃ leaf, outcome.result = .ok leaf ∧ outcome.machine.RestsAt leaf
  | .send _, machine, outcome => outcome.Refused machine ∨ outcome.Arrives machine
  | .start, machine, outcome => outcome.Refused machine ∨ outcome.Arrives machine

/-- **Every course settles.** -/
theorem Course.settles {activity : Activity C} {machine : Machine C L} {outcome : Outcome C L}
    (h : Course activity machine outcome) : activity.Settles machine outcome := by
  induction h with
  | done => exact .inl ⟨rfl, rfl⟩
  | read _ ih => exact ih
  | write _ ih => exact ih
  | ask asked rest ihasked ihrest =>
    obtain ⟨error, rfl⟩ | ⟨hlt, leaf, -, hrests⟩ := ihasked
    · exact ihrest
    · -- whatever comes after an event that was handled, the machine stays at a leaf
      refine .inr ?_
      obtain ⟨hsame, hdispatches⟩ | ⟨hlt', harrives⟩ := ihrest
      · have hrests' := hrests.of_eq rest.keeps hsame
        exact ⟨hdispatches ▸ hlt, leaf, rest.result_of_act.trans hrests'.leftAt_eq, hrests'⟩
      · exact ⟨Nat.lt_trans hlt hlt', harrives⟩
  | arrive =>
    intro hrunning hleaf
    exact ⟨_, rfl, hrunning, rfl, hleaf⟩
  | pass _ _ ih => exact ih
  | perform _ action same _ ihaction ihrest =>
    intro hrunning hleaf
    obtain ⟨hsame, -⟩ | ⟨hlt, -⟩ := ihaction
    · refine ihrest ((congrArg Configuration.status hsame).trans hrunning) ?_
      exact action.keeps.tree ▸ hleaf
    · -- an action that has begun a dispatch does not let its own one go on
      exact absurd same (Nat.ne_of_gt hlt)
  | overtaken _ _ other ihaction =>
    intro _ _
    obtain ⟨-, hdispatches⟩ | ⟨-, harrives⟩ := ihaction
    · exact absurd hdispatches other
    · exact harrives
  | unready _ => exact .inl ⟨_, rfl⟩
  | unhandled _ _ _ => exact .inl ⟨_, rfl⟩
  | dispatch _ _ ok walk ih =>
    exact .inr ⟨walk.keeps.dispatches, ih rfl (Tree.leads_of_transition ok).hasLeaf⟩
  | alreadyRunning _ => exact .inl ⟨_, rfl⟩
  | leafless _ _ => exact .inl ⟨_, rfl⟩
  | start _ ok walk ih =>
    exact .inr ⟨walk.keeps.dispatches, ih rfl (Tree.leads_of_start ok).hasLeaf⟩

/-- An action that begins no dispatch leaves the machine where it was. -/
theorem Course.toConfiguration_eq {number : Nat} {name : String} {program : Program C}
    {machine : Machine C L} {outcome : Outcome C L}
    (h : Course (.act number name program) machine outcome)
    (same : outcome.machine.dispatches = machine.dispatches) :
    outcome.machine.toConfiguration = machine.toConfiguration := by
  obtain ⟨hsame, -⟩ | ⟨hlt, -⟩ := h.settles
  · exact hsame
  · exact absurd same (Nat.ne_of_gt hlt)

/-! ## Between two calls -/

/-- **A machine at rest**: it has never been started, or a leaf is active. -/
def Machine.Resting (machine : Machine C L) : Prop :=
  (machine.status = .stopped ∧ machine.active = none)
    ∨ ∃ leaf, machine.active = some leaf ∧ machine.tree.HasLeaf leaf

theorem Machine.Built.resting {machine : Machine C L} (h : machine.Built) : machine.Resting :=
  .inl ⟨h.status_eq, h.active_eq⟩

theorem Machine.Outcome.Arrives.resting {machine : Machine C L} {outcome : Outcome C L}
    (h : outcome.Arrives machine) : outcome.machine.Resting := by
  obtain ⟨-, leaf, -, hrests⟩ := h
  exact .inr ⟨leaf, hrests.active, hrests.hasLeaf⟩

/-- **A start fails only while the machine is running.** -/
theorem Course.start_cases {machine : Machine C L} {outcome : Outcome C L}
    (h : Course .start machine outcome) :
    (machine.status = .running ∧ outcome = machine.refuse .alreadyRunning)
      ∨ (machine.status = .stopped ∧ outcome.Arrives machine) := by
  cases h with
  | alreadyRunning running => exact .inl ⟨running, rfl⟩
  | leafless stopped refused =>
    obtain ⟨leaf, hleaf, -⟩ := Tree.leafOf_eq_ok (Tree.hasNode_root machine.tree)
    exact nomatch hleaf.symm.trans refused
  | start stopped ok walk =>
    refine .inr ⟨stopped, walk.keeps.dispatches, ?_⟩
    exact walk.settles rfl (Tree.leads_of_start ok).hasLeaf

/-- A call that succeeds leaves the machine at the leaf that it answers. -/
theorem Machine.Outcome.restsAt_of_ok {machine : Machine C L} {outcome : Outcome C L}
    {leaf : Path} (h : outcome.Refused machine ∨ outcome.Arrives machine)
    (hok : outcome.result = .ok leaf) : outcome.machine.RestsAt leaf := by
  obtain ⟨error, rfl⟩ | ⟨-, found, hfound, hrests⟩ := h
  · exact nomatch hok
  · obtain rfl := Except.ok.inj (hfound.symm.trans hok)
    exact hrests

/-- **A call succeeds exactly if it begins a dispatch.** -/
theorem Machine.Outcome.exists_ok_iff {machine : Machine C L} {outcome : Outcome C L}
    (h : outcome.Refused machine ∨ outcome.Arrives machine) :
    (∃ leaf, outcome.result = .ok leaf) ↔ machine.dispatches < outcome.machine.dispatches := by
  obtain ⟨error, rfl⟩ | ⟨hlt, leaf, hok, -⟩ := h
  · exact iff_of_false nofun (Nat.lt_irrefl _)
  · exact iff_of_true ⟨leaf, hok⟩ hlt

namespace Episode

variable {episode : Episode C L}

/-- The call of an episode changes no states. -/
theorem Occurs.tree_eq (h : episode.Occurs) : episode.after.tree = episode.before.tree := by
  cases h using Occurs.byCourse with
  | start _ course => exact course.keeps.tree
  | send _ course => exact course.keeps.tree
  | change => exact Machine.tree_change

/-- **A call finds a machine at rest and leaves it at rest.** -/
theorem Occurs.resting (h : episode.Occurs) (hrest : episode.before.Resting) :
    episode.after.Resting := by
  cases h using Occurs.byCourse with
  | start _ course =>
    obtain ⟨-, hrefused⟩ | ⟨-, harrives⟩ := course.start_cases
    · exact hrefused ▸ hrest
    · exact harrives.resting
  | send _ course =>
    obtain ⟨error, rfl⟩ | harrives := course.settles
    · exact hrest
    · exact harrives.resting
  | change change machine =>
    obtain ⟨hstopped, hnone⟩ | ⟨leaf, hactive, hleaf⟩ := hrest
    · exact .inl ⟨Machine.status_change hstopped, Machine.active_change.trans hnone⟩
    · refine .inr ⟨leaf, Machine.active_change.trans hactive, ?_⟩
      show (machine.change change).tree.HasLeaf leaf
      rw [Machine.tree_change]
      exact hleaf

/-- **Nothing is active after a call** exactly if nothing was active before, and
the call was not a start. -/
theorem Occurs.active_eq_none_iff (h : episode.Occurs) (hrest : episode.before.Resting) :
    episode.after.active = none ↔ episode.before.active = none ∧ episode.call ≠ .start := by
  cases h using Occurs.byCourse with
  | start _ course =>
    refine iff_of_false (fun hnone => ?_) (fun h => h.2 rfl)
    obtain ⟨hrunning, rfl⟩ | ⟨-, -, leaf, -, hrests⟩ := course.start_cases
    · -- a machine at rest that is running has been started before
      obtain ⟨hstopped, -⟩ | ⟨leaf, hactive, -⟩ := hrest
      · exact nomatch hrunning.symm.trans hstopped
      · exact nomatch hactive.symm.trans hnone
    · exact nomatch hrests.active.symm.trans hnone
  | @send _ event _ _ _ course =>
    rw [and_iff_left (nofun : Call.send event ≠ .start)]
    obtain ⟨error, rfl⟩ | ⟨-, leaf, hok, hrests⟩ := course.settles
    · rfl
    · refine iff_of_false (fun hnone => nomatch hrests.active.symm.trans hnone) fun hnone => ?_
      cases course with
      | unready _ => exact nomatch hok
      | unhandled _ active _ => exact nomatch active.symm.trans hnone
      | dispatch _ active _ _ => exact nomatch active.symm.trans hnone
  | change change =>
    rw [Machine.active_change, and_iff_left (nofun : Call.change change ≠ .start)]

/-- **The answer to a call** is where it leaves the machine. -/
theorem Occurs.restsAt (h : episode.Occurs) {leaf : Path}
    (hok : episode.answer = some (.ok leaf)) : episode.after.RestsAt leaf := by
  cases h using Occurs.byCourse with
  | start _ course => exact Machine.Outcome.restsAt_of_ok course.settles (Option.some.inj hok)
  | send _ course => exact Machine.Outcome.restsAt_of_ok course.settles (Option.some.inj hok)
  | change => exact nomatch hok

/-- **An answer in a journal was given at some moment** of the call. -/
theorem Occurs.exists_during (h : episode.Occurs) {entry : Journal.Entry L}
    (hmem : entry ∈ episode.journal) {name event : String} {asked : Configuration}
    {reply : Except MachineError Path}
    (heq : entry.happening = .answered name event asked reply) :
    ∃ (now : Machine C L) (inner : Outcome C L), episode.before.During now
      ∧ Course (.send event) now inner ∧ now.toConfiguration = asked ∧ inner.result = reply
      ∧ inner.machine.toConfiguration = entry.configuration := by
  cases h using Occurs.byCourse with
  | start _ course =>
    obtain ⟨now, inner, hmoment, hinner⟩ := course.givenIn entry hmem heq
    exact ⟨now, inner, .inl hmoment, hinner⟩
  | send _ course =>
    obtain ⟨now, inner, hmoment, hinner⟩ := course.givenIn entry hmem heq
    exact ⟨now, inner, .inr ⟨_, hmoment⟩, hinner⟩
  | change => exact nomatch hmem

/-- The answer to an event that an action sent is where the machine was then. -/
theorem Occurs.restsAt_of_answered (h : episode.Occurs) {entry : Journal.Entry L}
    (hmem : entry ∈ episode.journal) {name event : String} {asked : Configuration} {leaf : Path}
    (heq : entry.happening = .answered name event asked (.ok leaf)) :
    entry.configuration.status = .running ∧ entry.configuration.active = some leaf
      ∧ episode.before.tree.HasLeaf leaf := by
  obtain ⟨now, inner, hduring, hcourse, -, hok, hafter⟩ := h.exists_during hmem heq
  have hrests := Machine.Outcome.restsAt_of_ok hcourse.settles hok
  rw [← hafter]
  refine ⟨hrests.running, hrests.active, ?_⟩
  rw [← hduring.keeps.tree, ← hcourse.keeps.tree]
  exact hrests.hasLeaf

end Episode

/-! ## Runs -/

namespace Run

variable {machine last : Machine C L} {episodes : List (Episode C L)}

/-- No run changes the states. -/
theorem tree_eq (run : Run machine episodes last) : last.tree = machine.tree := by
  induction run with
  | nil => rfl
  | concat _ occurs ih => exact occurs.tree_eq.trans ih

/-- **A machine is at rest after every run** of calls. -/
theorem resting (run : Run machine episodes last) (h : machine.Resting) : last.Resting := by
  induction run with
  | nil => exact h
  | concat _ occurs ih => exact occurs.resting ih

/-- What is true of every call on a machine at rest, with the states of the
machine at the beginning, is true of every call of a run. -/
theorem forall_mem (run : Run machine episodes last) (h : machine.Resting)
    {property : Episode C L → Prop}
    (hproperty : ∀ episode : Episode C L, episode.Occurs → episode.before.Resting →
      episode.before.tree = machine.tree → property episode) :
    ∀ episode ∈ episodes, property episode := by
  induction run with
  | nil => exact fun _ hmem => nomatch hmem
  | concat run occurs ih =>
    refine List.forall_mem_append.mpr ⟨ih, List.forall_mem_singleton.mpr ?_⟩
    exact hproperty _ occurs (run.resting h) run.tree_eq

theorem active_eq_none_iff (run : Run machine episodes last) (h : machine.Resting) :
    last.active = none ↔ machine.active = none ∧ ∀ episode ∈ episodes, episode.call ≠ .start := by
  induction run with
  | nil => exact (and_iff_left fun _ hmem => nomatch hmem).symm
  | concat run occurs ih =>
    rw [occurs.active_eq_none_iff (run.resting h), ih, List.forall_mem_append,
      List.forall_mem_singleton, and_assoc]

/-- **A machine always rests at a leaf.** Between two calls, nothing is active
exactly if the machine has never been started, and otherwise a leaf is. Whatever
start or send succeeds, from outside or out of an action, leaves the machine
running, and its answer is the active leaf. -/
theorem rests (built : machine.Built) (run : Run machine episodes last) :
    (last.active = none ↔ ∀ episode ∈ episodes, episode.call ≠ .start)
      ∧ (∀ path, last.active = some path → last.tree.HasLeaf path)
      ∧ (∀ episode ∈ episodes, ∀ leaf, episode.answer = some (.ok leaf) →
        episode.after.RestsAt leaf)
      ∧ ∀ episode ∈ episodes, ∀ entry ∈ episode.journal, ∀ name event asked leaf,
        entry.happening = .answered name event asked (.ok leaf) →
          entry.configuration.status = .running ∧ entry.configuration.active = some leaf
            ∧ machine.tree.HasLeaf leaf := by
  refine ⟨?_, ?_, ?_, ?_⟩
  · rw [run.active_eq_none_iff built.resting, and_iff_right built.active_eq]
  · intro path hpath
    obtain ⟨-, hnone⟩ | ⟨leaf, hactive, hleaf⟩ := run.resting built.resting
    · exact nomatch hnone.symm.trans hpath
    · exact Option.some.inj (hactive.symm.trans hpath) ▸ hleaf
  · exact run.forall_mem built.resting fun _ occurs _ _ _ => occurs.restsAt
  · refine run.forall_mem built.resting fun episode occurs _ htree => ?_
    intro entry hmem name event asked leaf heq
    exact htree ▸ occurs.restsAt_of_answered hmem heq

/-- The lamp rests at a leaf, although it faded before it was bright. -/
theorem rests_lamp : ∃ episodes, Run Lamp.machine episodes Lamp.dim
    ∧ Lamp.dim.tree.HasLeaf ⟨["on", "dim"]⟩ := by
  obtain ⟨episodes, run, -⟩ := Lamp.exists_run
  exact ⟨episodes, run, (rests Lamp.built run).2.1 _ rfl⟩

end Run

end Statechart
