import Mathlib.Data.List.Basic
import Statechart.Proofs.Machine.Vain

/-!
# A machine as a fold over events

A machine keeps a status, an active path that moves in the midst of a dispatch, a
history and the number of dispatches. None of this matters as long as whatever its
actions send is refused: then what the machine does with a list of events is told by
the tree alone. The active path goes from leaf to leaf by `Tree.follow`, and the
dispatches are the `Tree.stages`: the start, and one for each event that has a
transition where the events before it have led.

`Machine.follows_tree` says so of a start and any events after it. Each stage takes
all of its steps, with the action of each step that has one, tells every listener
once, and is followed by the next; the context goes through all actions in this order.
-/

namespace Statechart

variable {C L : Type}

open Machine (Outcome)
open Journal

/-! ## What the tree tells -/

/-- **A dispatch as it is planned.** -/
structure Stage where
  /-- What it is about. -/
  occasion : Occasion
  /-- The steps it is to take. -/
  steps : List Step

namespace Stage

/-- The start in a leaf. -/
def ofStart (leaf : Path) : Stage := ⟨⟨startEvent, leaf, none⟩, leaf.startSteps⟩

/-- What an event does while a path is active. -/
def ofTransition (current : Path) (event : String) (transition : Transition) : Stage :=
  ⟨⟨event, transition.leaf, some ⟨current, event⟩⟩, transition.steps⟩

end Stage

/-- What happens at a step: it is taken, and its action is run, if it has one. -/
def Step.happenings (nameAt? : Step → Option String) (occasion : Occasion) (step : Step) :
    List (Happening L) :=
  .took step :: ((nameAt? step).map fun name => .ran name ⟨step, occasion⟩).toList

/-- The listeners are told, each in turn. -/
def Occasion.announcements (occasion : Occasion) (listeners : List (Handle × L)) :
    List (Happening L) :=
  listeners.map fun (handle, listener) => .told handle listener occasion.leaf occasion.event

/-- **What happens at a stage**: it begins, each step is taken and its action run, if
it has one, and at last the listeners are told. -/
def Stage.happenings (nameAt? : Step → Option String) (listeners : List (Handle × L))
    (stage : Stage) : List (Happening L) :=
  .began stage.occasion stage.steps :: (stage.steps.flatMap (·.happenings nameAt? stage.occasion)
    ++ stage.occasion.announcements listeners)

namespace Tree

/-- **Where an event leads**: to the leaf of its transition, or nowhere if it has
none. -/
def follow (tree : Tree) (path : Path) (event : String) : Path :=
  match tree.transition path event with
  | .ok transition => transition.leaf
  | .error _ => path

/-- What an event does where it is sent, if it does something. -/
def stageOf (tree : Tree) (path : Path) (event : String) : List Stage :=
  match tree.transition path event with
  | .ok transition => [.ofTransition path event transition]
  | .error _ => []

/-- **What events do** that are sent one after the other. -/
def stages (tree : Tree) (path : Path) : List String → List Stage
  | [] => []
  | event :: events => tree.stageOf path event ++ tree.stages (tree.follow path event) events

variable (tree : Tree) (path : Path)

theorem stages_concat (events : List String) (event : String) :
    tree.stages path (events ++ [event])
      = tree.stages path events ++ tree.stageOf (events.foldl tree.follow path) event := by
  induction events generalizing path with
  | nil => simp [stages]
  | cons first events ih =>
    rw [List.cons_append, stages, stages, ih, List.append_assoc]
    rfl

end Tree

/-! ## What a machine does -/

namespace Machine

/-- What the actions of a stage make of the context. -/
def performAll? (machine : Machine C L) (context : C) (stage : Stage) : Option C :=
  stage.steps.foldlM (machine.perform? stage.occasion) context

/-- The happenings of some stages, as the machine has actions and listeners. -/
def happeningsOf (machine : Machine C L) (stages : List Stage) : List (Happening L) :=
  stages.flatMap (Stage.happenings machine.nameAt? machine.subscribers.listeners)

theorem map_happening_trail {occasion : Occasion} {steps : List Step} (machine : Machine C L) :
    (trail occasion steps machine).map (·.happening)
      = steps.flatMap (·.happenings machine.nameAt? occasion)
        ++ occasion.announcements machine.subscribers.listeners := by
  induction steps generalizing machine with
  | nil =>
    unfold trail tell
    rw [List.map_map]
    rfl
  | cons step steps ih =>
    have hstep : (machine.stepping step :: machine.actingAt occasion step).map (·.happening)
        = step.happenings machine.nameAt? occasion := by
      unfold actingAt Step.happenings
      cases machine.nameAt? step <;> rfl
    rw [trail, List.map_append, hstep, ih, List.flatMap_cons, List.append_assoc]
    rfl

/-- **A machine has gone through some stages**, and some things have happened. -/
structure Passes (machine : Machine C L) (stages : List Stage) (journal : Journal L)
    (later : Machine C L) : Prop where
  /-- It has the same states, actions and listeners. -/
  keeps : machine.Keeps later
  /-- Its context has gone through all actions. -/
  context : stages.foldlM machine.performAll? machine.context = some later.context
  /-- What has happened are the happenings of the stages. -/
  happened : journal.withoutAnswers.map (·.happening) = machine.happeningsOf stages

variable {machine middle later : Machine C L} {stages stages' : List Stage}
  {journal journal' : Journal L}

theorem Keeps.perform?_eq (h : machine.Keeps later) : later.perform? = machine.perform? := by
  funext occasion context step
  unfold perform?
  rw [h.bindings, h.tree]

theorem Keeps.performAll?_eq (h : machine.Keeps later) :
    later.performAll? = machine.performAll? := by
  funext context stage
  unfold performAll?
  rw [h.perform?_eq]

theorem Keeps.happeningsOf_eq (h : machine.Keeps later) :
    later.happeningsOf = machine.happeningsOf := by
  have hnames : later.nameAt? = machine.nameAt? := by
    funext step
    unfold nameAt?
    rw [h.bindings]
  funext stages
  unfold happeningsOf
  rw [hnames, h.subscribers]

namespace Passes

/-- Nothing has happened. -/
theorem refl (machine : Machine C L) : machine.Passes [] [] machine :=
  ⟨.refl machine, rfl, rfl⟩

/-- **Stages follow one another.** -/
theorem append (h : machine.Passes stages journal middle)
    (h' : middle.Passes stages' journal' later) :
    machine.Passes (stages ++ stages') (journal ++ journal') later := by
  have hcontext := h'.context
  have hhappened := h'.happened
  rw [h.keeps.performAll?_eq] at hcontext
  rw [h.keeps.happeningsOf_eq] at hhappened
  refine ⟨h.keeps.trans h'.keeps, ?_, ?_⟩
  · rw [List.foldlM_append, h.context]
    exact hcontext
  · rw [withoutAnswers_append, List.map_append, h.happened, hhappened]
    exact List.flatMap_append.symm

end Passes

variable {outcome : Outcome C L}

/-- **A dispatch whose actions send in vain passes its stage.** -/
theorem Outcome.Plain.passes {occasion : Occasion} {steps : List Step}
    (h : outcome.Plain machine occasion steps) :
    machine.Passes [⟨occasion, steps⟩] outcome.journal outcome.machine := by
  refine ⟨?_, ?_, ?_⟩
  · rw [h.machine_eq]
    exact ⟨rfl, rfl, rfl, Nat.le_succ _⟩
  · exact Option.bind_eq_some_iff.mpr ⟨_, h.context, rfl⟩
  · rw [h.journal, List.map_cons, map_happening_trail]
    exact (List.append_nil _).symm

end Machine

open Machine

/-! ## Calls -/

section Calls

variable {machine : Machine C L} {outcome : Outcome C L} {event : String} {path leaf : Path}

/-- **A send that sends in vain follows the tree.** -/
theorem Course.passes_send (h : Course (.send event) machine outcome)
    (hrunning : machine.status = .running) (hactive : machine.active = some path)
    (hvain : outcome.journal.Vain) :
    outcome.machine.status = .running
      ∧ outcome.machine.active = some (machine.tree.follow path event)
      ∧ machine.Passes (machine.tree.stageOf path event) outcome.journal outcome.machine := by
  unfold Tree.follow Tree.stageOf
  cases h with
  | unready unready =>
    obtain hstopped | hnone := unready
    · exact nomatch hrunning.symm.trans hstopped
    · exact nomatch hactive.symm.trans hnone
  | unhandled running active refused =>
    obtain rfl := Option.some.inj (active.symm.trans hactive)
    rw [refused]
    exact ⟨running, active, .refl machine⟩
  | dispatch running active ok walk =>
    obtain rfl := Option.some.inj (active.symm.trans hactive)
    have hplain := walk.plain_of_walk ((vain_cons rfl).mp hvain)
    rw [ok]
    refine ⟨?_, ?_, hplain.passes⟩
    · exact congrArg (·.status) hplain.machine_eq
    · exact congrArg (·.active) hplain.machine_eq

/-- **A start that sends in vain leads to the default leaf.** -/
theorem Course.passes_start (h : Course .start machine outcome)
    (hstopped : machine.status = .stopped) (hleaf : machine.tree.leafOf .root = .ok leaf)
    (hvain : outcome.journal.Vain) :
    outcome.machine.status = .running ∧ outcome.machine.active = some leaf
      ∧ machine.Passes [.ofStart leaf] outcome.journal outcome.machine := by
  cases h with
  | alreadyRunning running => exact nomatch hstopped.symm.trans running
  | leafless _ refused => exact nomatch hleaf.symm.trans refused
  | start _ ok walk =>
    obtain rfl := Except.ok.inj (ok.symm.trans hleaf)
    have hplain := walk.plain_of_walk ((vain_cons rfl).mp hvain)
    refine ⟨?_, ?_, hplain.passes⟩
    · exact congrArg (·.status) hplain.machine_eq
    · exact congrArg (·.active) hplain.machine_eq

theorem exists_course_send {context : C} (hrunning : machine.status = .running)
    (hactive : machine.active = some path)
    (h : (machine.tree.stageOf path event).foldlM machine.performAll? machine.context
      = some context) :
    ∃ outcome : Outcome C L, Course (.send event) machine outcome ∧ outcome.journal.Vain := by
  unfold Tree.stageOf at h
  cases htransition : machine.tree.transition path event with
  | error error => exact ⟨_, .unhandled hrunning hactive htransition, fun _ hmem => nomatch hmem⟩
  | ok transition =>
    rw [htransition] at h
    obtain ⟨performed, hperformed, -⟩ := Option.bind_eq_some_iff.mp h
    obtain ⟨walked, hwalked, hvain⟩ := @exists_course_walk _ _ _ _
      (machine.begun ⟨event, transition.leaf, some ⟨path, event⟩⟩) _ rfl hperformed
    exact ⟨_, .dispatch hrunning hactive htransition hwalked, (vain_cons rfl).mpr hvain⟩

theorem exists_course_start {context : C} (hstopped : machine.status = .stopped)
    (hleaf : machine.tree.leafOf .root = .ok leaf)
    (h : [Stage.ofStart leaf].foldlM machine.performAll? machine.context = some context) :
    ∃ outcome : Outcome C L, Course .start machine outcome ∧ outcome.journal.Vain := by
  obtain ⟨performed, hperformed, -⟩ := Option.bind_eq_some_iff.mp h
  obtain ⟨walked, hwalked, hvain⟩ := @exists_course_walk _ _ _ _
    (machine.begun ⟨startEvent, leaf, none⟩) _ rfl hperformed
  exact ⟨_, .start hstopped hleaf hwalked, (vain_cons rfl).mpr hvain⟩

end Calls

/-! ## Sessions -/

/-- **A start, and events after it.** -/
def Call.session (events : List String) : List (Call C L) := .start :: events.map .send

theorem Call.session_concat (events : List String) (event : String) :
    session (events ++ [event]) = (session events ++ [.send event] : List (Call C L)) := by
  unfold session
  rw [List.map_append]
  rfl

/-- All that has happened during some calls. -/
def journalOf (episodes : List (Episode C L)) : Journal L := episodes.flatMap Episode.journal

theorem journalOf_concat (episodes : List (Episode C L)) (episode : Episode C L) :
    journalOf (episodes ++ [episode]) = journalOf episodes ++ episode.journal := by
  unfold journalOf
  rw [List.flatMap_append, List.flatMap_singleton]

namespace Run

variable {machine last : Machine C L} {episodes : List (Episode C L)} {leaf : Path}

theorem eq_of_nil (run : Run machine [] last) : last = machine := by
  generalize hnil : ([] : List (Episode C L)) = episodes at run
  cases run with
  | nil => rfl
  | concat _ _ => exact absurd hnil.symm (by simp)

/-- **A session during which everything is sent in vain follows the tree.** -/
theorem passes {events : List String} (run : Run machine episodes last)
    (hstopped : machine.status = .stopped) (hleaf : machine.tree.leafOf .root = .ok leaf)
    (hcalls : episodes.map Episode.call = Call.session events)
    (hvain : (journalOf episodes).Vain) :
    last.status = .running ∧ last.active = some (events.foldl machine.tree.follow leaf)
      ∧ machine.Passes (.ofStart leaf :: machine.tree.stages leaf events) (journalOf episodes)
        last := by
  induction run generalizing events with
  | nil => exact nomatch hcalls
  | @concat episodes episode run occurs ih =>
    rw [journalOf_concat] at hvain ⊢
    obtain ⟨hbefore, hnow⟩ := vain_append.mp hvain
    rw [List.map_append] at hcalls
    obtain rfl | ⟨earlier, event, rfl⟩ := List.eq_nil_or_concat' events
    · -- the only call is the start
      have hsession : List.map Episode.call episodes ++ [episode.call] = [] ++ [.start] := hcalls
      obtain ⟨hnone, hcall⟩ := List.append_inj' hsession rfl
      obtain rfl := List.map_eq_nil_iff.mp hnone
      have hbefore := run.eq_of_nil
      cases occurs using Episode.Occurs.byCourse with
      | start _ course =>
        obtain rfl := hbefore
        exact course.passes_start hstopped hleaf hnow
      | send _ _ => exact nomatch List.singleton_inj.mp hcall
      | change => exact nomatch List.singleton_inj.mp hcall
    · rw [Call.session_concat] at hcalls
      obtain ⟨hearlier, hcall⟩ := List.append_inj' hcalls rfl
      obtain ⟨hrunning, hactive, hpasses⟩ := ih hearlier hbefore
      rw [List.foldl_concat, Tree.stages_concat]
      cases occurs using Episode.Occurs.byCourse with
      | send _ course =>
        obtain rfl := Call.send.inj (List.singleton_inj.mp hcall)
        obtain ⟨hrunning', hactive', hsent⟩ := course.passes_send hrunning hactive hnow
        rw [hpasses.keeps.tree] at hactive' hsent
        exact ⟨hrunning', hactive', hpasses.append hsent⟩
      | start _ _ => exact nomatch List.singleton_inj.mp hcall
      | change => exact nomatch List.singleton_inj.mp hcall

/-- **A session whose actions would send in vain takes place.** -/
theorem exists_session {events : List String} {context : C}
    (hstopped : machine.status = .stopped) (hleaf : machine.tree.leafOf .root = .ok leaf)
    (h : (Stage.ofStart leaf :: machine.tree.stages leaf events).foldlM machine.performAll?
      machine.context = some context) :
    ∃ episodes last, Run machine episodes last
      ∧ episodes.map Episode.call = Call.session events ∧ (journalOf episodes).Vain := by
  induction events using List.reverseRecOn generalizing context with
  | nil =>
    obtain ⟨outcome, course, hvain⟩ := exists_course_start hstopped hleaf h
    refine ⟨_, _, .concat .nil (.of_start course), rfl, ?_⟩
    exact vain_append.mpr ⟨hvain, fun _ hmem => nomatch hmem⟩
  | append_singleton events event ih =>
    rw [Tree.stages_concat, ← List.cons_append, List.foldlM_append] at h
    obtain ⟨middle, hmiddle, hlast⟩ := Option.bind_eq_some_iff.mp h
    obtain ⟨episodes, before, run, hcalls, hvain⟩ := ih hmiddle
    obtain ⟨hrunning, hactive, hpasses⟩ := run.passes hstopped hleaf hcalls hvain
    obtain rfl := Option.some.inj (hmiddle.symm.trans hpasses.context)
    rw [← hpasses.keeps.tree, ← hpasses.keeps.performAll?_eq] at hlast
    rw [← hpasses.keeps.tree] at hactive
    obtain ⟨outcome, course, hnow⟩ := exists_course_send hrunning hactive hlast
    refine ⟨_, _, .concat run (.of_send course), ?_, ?_⟩
    · rw [List.map_append, hcalls, Call.session_concat]
      rfl
    · rw [journalOf_concat]
      exact vain_append.mpr ⟨hvain, hnow⟩

end Run

/-- **A machine whose actions send in vain is a fold over events.** Take a machine
that is stopped, such as one that has just been made, with any listeners and any
context. Whenever it is started and then sent events, and whatever its actions send
is refused, the active path in the end is what the tree makes of the default leaf and
the events; the context has gone through the actions of all stages in turn; and what
has happened, apart from actions being refused, is that each stage took its steps,
ran the actions of those that have one, and told every listener of its leaf and its
event. And such a session does take place if everything that the actions of the
stages would send is refused. -/
theorem Machine.follows_tree {machine : Machine C L} (stopped : machine.status = .stopped) :
    ∃ leaf, machine.tree.leafOf .root = .ok leaf ∧ ∀ events : List String,
      (∀ episodes last, Run machine episodes last →
        episodes.map Episode.call = Call.session events → (journalOf episodes).Vain →
          last.active = some (events.foldl machine.tree.follow leaf)
            ∧ (Stage.ofStart leaf :: machine.tree.stages leaf events).foldlM machine.performAll?
              machine.context = some last.context
            ∧ (journalOf episodes).withoutAnswers.map (·.happening)
              = machine.happeningsOf (.ofStart leaf :: machine.tree.stages leaf events))
      ∧ ∀ context, (Stage.ofStart leaf :: machine.tree.stages leaf events).foldlM
          machine.performAll? machine.context = some context →
        ∃ episodes last, Run machine episodes last
          ∧ episodes.map Episode.call = Call.session events ∧ (journalOf episodes).Vain := by
  obtain ⟨leaf, hleaf, -⟩ := Tree.leafOf_eq_ok (Tree.hasNode_root machine.tree)
  refine ⟨leaf, hleaf, fun events => ⟨?_, ?_⟩⟩
  · intro episodes last run hcalls hvain
    obtain ⟨-, hactive, hpasses⟩ := run.passes stopped hleaf hcalls hvain
    exact ⟨hactive, hpasses.context, hpasses.happened⟩
  · intro context hcontext
    exact Run.exists_session stopped hleaf hcontext

/-- The wishful lamp, turned on and asked to glow, is bright in the end, and has been
refused once by itself. -/
theorem Machine.follows_tree_lamp : ∃ episodes last, Run Lamp.wishful episodes last
    ∧ episodes.map Episode.call = [.start, .send "flip", .send "glow"]
    ∧ last.active = some ⟨["on", "bright"]⟩ ∧ last.context = 1 := by
  obtain ⟨leaf, hleaf, hfold⟩ := follows_tree (show Lamp.wishful.status = .stopped from rfl)
  obtain rfl : ⟨["off"]⟩ = leaf := Except.ok.inj hleaf
  obtain ⟨hfollows, hexists⟩ := hfold ["flip", "glow"]
  obtain ⟨episodes, last, run, hcalls, hvain⟩ := hexists 1 rfl
  obtain ⟨hactive, hcontext, -⟩ := hfollows episodes last run hcalls hvain
  refine ⟨episodes, last, run, hcalls, hactive, ?_⟩
  exact (Option.some.inj hcontext).symm

end Statechart
