import Statechart.Proofs.Machine.Conduct
import Statechart.Proofs.Machine.Rest

/-!
# Nested dispatches, one after the other

An action that sends an event sets off a dispatch in the middle of another one,
and the actions of that dispatch may do the same. The steps that are taken in the
end are a plain sequence of dispatches all the same (`Episode.Flat`): the dispatches
of a call take their steps one after the other in the order in which they began,
each of them from where the one before it stopped, and each of them as `Conduct`
has it.

The reason is that a dispatch takes no more steps once another one has begun. That
is known from the number of dispatches, so the induction on the course says of an
action that this number has grown exactly if an event it sent was handled
(`Activity.Unfolds`).
-/

namespace Statechart

variable {C L : Type}

open Machine (Outcome)

/-! ## Sequences of dispatches -/

namespace Block

/-- **A dispatch has been carried out**: it has taken at least one step, and has
done what a dispatch does. -/
structure Carried (listeners : List (Handle × L)) (block : Block L) : Prop where
  ne_nil : block.taken ≠ []
  conduct : Conduct listeners block.occasion block.steps block.deeds

/-- **A dispatch that a start began.** -/
structure Started (tree : Tree) (listeners : List (Handle × L)) (block : Block L) : Prop
    extends Carried listeners block where
  /-- It was to enter the root and then every node on the way to the default leaf. -/
  exists_leaf : ∃ leaf, tree.leafOf .root = .ok leaf
    ∧ block.occasion = ⟨startEvent, leaf, none⟩ ∧ block.steps = leaf.startSteps

/-- **A dispatch that an event began**, sent while a path was active. -/
structure Sent (tree : Tree) (listeners : List (Handle × L)) (current : Path) (event : String)
    (block : Block L) : Prop extends Carried listeners block where
  /-- It was to take the steps of the transition that the event has there. -/
  exists_transition : ∃ transition, tree.transition current event = .ok transition
    ∧ block.occasion = ⟨event, transition.leaf, some ⟨current, event⟩⟩
    ∧ block.steps = transition.steps

end Block

/-- **Dispatches one after the other**: each of them is begun by an event that is
sent where the one before it has stopped. -/
inductive Sequence (tree : Tree) (listeners : List (Handle × L)) :
    Option Path → List (Block L) → Option Path → Prop where
  /-- There are none. -/
  | nil {active : Option Path} : Sequence tree listeners active [] active
  /-- There is one and then others. -/
  | cons {current : Path} {event : String} {block : Block L} {blocks : List (Block L)}
    {last : Option Path} (sent : block.Sent tree listeners current event)
    (rest : Sequence tree listeners block.stop blocks last) :
    Sequence tree listeners (some current) (block :: blocks) last

theorem Sequence.append {tree : Tree} {listeners : List (Handle × L)}
    {active middle last : Option Path} {blocks blocks' : List (Block L)}
    (h : Sequence tree listeners active blocks middle)
    (h' : Sequence tree listeners middle blocks' last) :
    Sequence tree listeners active (blocks ++ blocks') last := by
  induction h with
  | nil => exact h'
  | cons sent _ ih => exact .cons sent (ih h')

/-- All dispatches of a sequence have been carried out. -/
theorem Sequence.carried {tree : Tree} {listeners : List (Handle × L)}
    {active last : Option Path} {blocks : List (Block L)}
    (h : Sequence tree listeners active blocks last) :
    ∀ block ∈ blocks, block.Carried listeners := by
  induction h with
  | nil => exact fun _ hmem => nomatch hmem
  | cons sent _ ih => exact List.forall_mem_cons.mpr ⟨sent.toCarried, ih⟩

/-! ## The dispatches of a course -/

/-- **The dispatches of an activity.** -/
def Activity.Unfolds : Activity C → Machine C L → Outcome C L → Prop
  | .act number name _, machine, outcome =>
    number ≤ machine.dispatches → ∃ (answers : List Answer) (blocks : List (Block L)),
      Flattens number machine.dispatches outcome.machine.dispatches outcome.journal
        (answers.map (Answer.deed name)) blocks
      ∧ Sequence machine.tree machine.subscribers.listeners machine.active blocks
        outcome.machine.active
      ∧ ((∃ answer ∈ answers, answer.Succeeded)
        ↔ machine.dispatches < outcome.machine.dispatches)
  | .walk occasion steps, machine, outcome =>
    ∀ active, Replay active steps (some occasion.leaf) →
      ∃ (deeds : List (Happening L)) (blocks : List (Block L)),
      Flattens machine.dispatches machine.dispatches outcome.machine.dispatches outcome.journal
        deeds blocks
      ∧ Conduct machine.subscribers.listeners occasion steps deeds
      ∧ Sequence machine.tree machine.subscribers.listeners
        (arrivalOf active (stepsOf deeds)) blocks outcome.machine.active
  | .send event, machine, outcome =>
    outcome.Refused machine ∨ ∃ (current : Path) (block : Block L) (blocks : List (Block L)),
      machine.active = some current
      ∧ block.Sent machine.tree machine.subscribers.listeners current event
      ∧ (∀ own ≤ machine.dispatches, Flattens own machine.dispatches
        outcome.machine.dispatches outcome.journal [] (block :: blocks))
      ∧ Sequence machine.tree machine.subscribers.listeners block.stop blocks
        outcome.machine.active
  | .start, machine, outcome =>
    outcome.Refused machine ∨ ∃ (block : Block L) (blocks : List (Block L)),
      block.Started machine.tree machine.subscribers.listeners
      ∧ (∀ own ≤ machine.dispatches, Flattens own machine.dispatches
        outcome.machine.dispatches outcome.journal [] (block :: blocks))
      ∧ Sequence machine.tree machine.subscribers.listeners block.stop blocks
        outcome.machine.active

namespace Course

/-- The case of an event that an action sends. -/
theorem unfolds_ask {number : Nat} {name event : String} {machine : Machine C L}
    {reply outcome : Outcome C L} {program next : Program C}
    (asked : Course (.send event) machine reply)
    (rest : Course (.act number name next) reply.machine outcome)
    (ihasked : (Activity.send event).Unfolds machine reply)
    (ihrest : (Activity.act number name next).Unfolds reply.machine outcome) :
    (Activity.act number name program).Unfolds machine
      (outcome.after (reply.journal ++ [machine.answering number name event reply])) := by
  intro hnumber
  have hkeeps := asked.keeps
  obtain ⟨answers, blocks, hflat, hsequence, hok⟩ := ihrest (Nat.le_trans hnumber hkeeps.dispatches)
  rw [hkeeps.tree, hkeeps.subscribers] at hsequence
  have hanswer : Flattens number reply.machine.dispatches reply.machine.dispatches
      [machine.answering number name event reply]
      [Answer.deed name ⟨event, machine.toConfiguration, reply.result⟩] [] :=
    .of_own (List.forall_mem_singleton.mpr ⟨rfl, rfl⟩)
  have hlater := hanswer.append hflat (Nat.le_trans hnumber hkeeps.dispatches) (.inl rfl)
  have hok' : (∃ answer ∈ Answer.mk event machine.toConfiguration reply.result :: answers,
      answer.Succeeded) ↔ machine.dispatches < outcome.machine.dispatches := by
    simp only [List.mem_cons, exists_eq_or_imp, hok]
    show (∃ leaf, reply.result = .ok leaf) ∨ _ ↔ _
    rw [Machine.Outcome.exists_ok_iff asked.settles]
    have hle := hkeeps.dispatches
    have hle' := rest.keeps.dispatches
    omega
  refine ⟨Answer.mk event machine.toConfiguration reply.result :: answers, ?_⟩
  show ∃ blocks, Flattens _ _ _ ((reply.journal ++ _) ++ outcome.journal) _ blocks ∧ _
  rw [List.append_assoc]
  obtain ⟨error, rfl⟩ | ⟨current, block, inner, hactive, hsent, hinner, hstop⟩ := ihasked
  · exact ⟨blocks, hlater, hsequence, hok'⟩
  · -- the dispatches it has begun come before those of what remains of the action
    refine ⟨block :: inner ++ blocks, ?_, ?_, hok'⟩
    · refine (hinner number hnumber).append hlater hnumber (.inr ?_)
      exact stepsOf_answers name (_ :: answers)
    · rw [hactive]
      exact .cons hsent (hstop.append hsequence)

/-- A step, and the beginning of its action. -/
theorem flattens_acting (machine : Machine C L) (name : String) (step : Step)
    (occasion : Occasion) :
    Flattens machine.dispatches machine.dispatches machine.dispatches
      [machine.stepping step, machine.acting name ⟨step, occasion⟩]
      [.took step, .ran name ⟨step, occasion⟩] [] :=
  .of_own (List.forall_mem_cons.mpr ⟨⟨rfl, rfl⟩, List.forall_mem_singleton.mpr ⟨rfl, rfl⟩⟩)

/-- The listeners are told. -/
theorem flattens_tell (machine : Machine C L) (leaf : Path) (event : String) :
    Flattens machine.dispatches machine.dispatches machine.dispatches
      (machine.tell machine.dispatches leaf event)
      (machine.subscribers.listeners.map fun (handle, listener) =>
        .told handle listener leaf event) [] := by
  have hown : ∀ entry ∈ machine.tell machine.dispatches leaf event,
      entry.dispatch = machine.dispatches ∧ entry.happening.isBeginning = false := by
    intro entry hmem
    obtain ⟨_, -, rfl⟩ := List.mem_map.mp hmem
    exact ⟨rfl, rfl⟩
  have hflat : Flattens machine.dispatches machine.dispatches machine.dispatches
      (machine.tell machine.dispatches leaf event) _ [] := .of_own hown
  unfold Machine.tell at hflat ⊢
  rw [List.map_map] at hflat
  exact hflat

/-- The case of a step with an action that begins no dispatch. -/
theorem unfolds_perform {occasion : Occasion} {step : Step} {steps : List Step} {name : String}
    {program : Program C} {machine : Machine C L} {acted outcome : Outcome C L}
    (action : Course (.act machine.dispatches name program) (machine.movedTo step.arrival) acted)
    (same : acted.machine.dispatches = machine.dispatches)
    (ihaction : (Activity.act machine.dispatches name program).Unfolds
      (machine.movedTo step.arrival) acted)
    (ihrest : (Activity.walk occasion steps).Unfolds acted.machine outcome) :
    (Activity.walk occasion (step :: steps)).Unfolds machine
      (outcome.after (machine.stepping step :: machine.acting name ⟨step, occasion⟩
        :: acted.journal)) := by
  intro active hreplay
  have hkeeps := action.keeps
  obtain ⟨answers, inner, hacted, -, hok⟩ := ihaction (Nat.le_refl _)
  have hfailed : ∀ answer ∈ answers, ¬ answer.Succeeded := by
    intro answer hmem hanswer
    exact Nat.ne_of_gt (hok.mp ⟨answer, hmem, hanswer⟩) same
  cases hreplay with
  | cons move replay =>
    obtain rfl := move.arrival_eq
    obtain ⟨deeds, blocks, hflat, hconduct, hsequence⟩ := ihrest _ replay
    -- no dispatch has begun during the action, so the steps simply go on
    rw [same] at hacted hflat
    obtain rfl := hacted.blocks_eq_nil
    have hstep := (flattens_acting machine name step occasion).append hacted (Nat.le_refl _)
      (.inl rfl)
    refine ⟨_, blocks, hstep.append hflat (Nat.le_refl _) (.inl rfl), ?_, ?_⟩
    · rw [hkeeps.subscribers] at hconduct
      exact .perform hfailed hconduct
    · rw [hkeeps.tree, hkeeps.subscribers] at hsequence
      rw [stepsOf_append, stepsOf_append, stepsOf_answers, List.append_nil]
      exact hsequence

/-- The case of a step with an action that begins another dispatch. -/
theorem unfolds_overtaken {occasion : Occasion} {step : Step} {steps : List Step}
    {name : String} {program : Program C} {machine : Machine C L} {acted : Outcome C L}
    (action : Course (.act machine.dispatches name program) (machine.movedTo step.arrival) acted)
    (other : acted.machine.dispatches ≠ machine.dispatches)
    (ihaction : (Activity.act machine.dispatches name program).Unfolds
      (machine.movedTo step.arrival) acted) :
    (Activity.walk occasion (step :: steps)).Unfolds machine
      (acted.after [machine.stepping step, machine.acting name ⟨step, occasion⟩]) := by
  intro active _
  obtain ⟨answers, blocks, hacted, hsequence, hok⟩ := ihaction (Nat.le_refl _)
  have hlt : machine.dispatches < acted.machine.dispatches :=
    Nat.lt_of_le_of_ne action.keeps.dispatches other.symm
  have hstep := (flattens_acting machine name step occasion).append hacted (Nat.le_refl _)
    (.inl rfl)
  refine ⟨_, blocks, hstep, .overtaken (hok.mpr hlt), ?_⟩
  rw [stepsOf_append, stepsOf_answers, List.append_nil]
  exact hsequence

/-- The case of a dispatch, of which the steps lead to a leaf. -/
theorem carried_of_walk {occasion : Occasion} {steps : List Step} {machine : Machine C L}
    {outcome : Outcome C L}
    (hleads : machine.tree.Leads (occasion.departure.map Departure.value) steps occasion.leaf)
    (ih : (Activity.walk occasion steps).Unfolds (machine.begun occasion) outcome) :
    ∃ (block : Block L) (blocks : List (Block L)), block.occasion = occasion
      ∧ block.steps = steps ∧ block.Carried machine.subscribers.listeners
      ∧ (∀ own ≤ machine.dispatches, Flattens own machine.dispatches outcome.machine.dispatches
        (machine.beginning occasion steps :: outcome.journal) [] (block :: blocks))
      ∧ Sequence machine.tree machine.subscribers.listeners block.stop blocks
        outcome.machine.active := by
  obtain ⟨deeds, blocks, hflat, hconduct, hsequence⟩ := ih _ hleads.replay
  exact ⟨⟨⟨machine.dispatches + 1, occasion, steps⟩, deeds⟩, blocks, rfl, rfl,
    ⟨hconduct.taken_ne_nil hleads.ne_nil, hconduct⟩, fun _ hown => hflat.close hown, hsequence⟩

/-- **The dispatches of every course are a sequence.** -/
theorem unfolds {activity : Activity C} {machine : Machine C L} {outcome : Outcome C L}
    (h : Course activity machine outcome) : activity.Unfolds machine outcome := by
  induction h with
  | done => exact fun _ => ⟨[], [], .of_own nofun, .nil, iff_of_false nofun (Nat.lt_irrefl _)⟩
  | read _ ih => exact ih
  | write _ ih => exact ih
  | ask asked rest ihasked ihrest => exact unfolds_ask asked rest ihasked ihrest
  | @arrive occasion machine =>
    intro active hreplay
    cases hreplay
    refine ⟨_, [], flattens_tell (machine.movedTo occasion.leaf) _ _, .arrive, ?_⟩
    rw [stepsOf_told]
    exact .nil
  | @pass occasion step _ machine _ _ _ ih =>
    intro active hreplay
    cases hreplay with
    | cons move replay =>
      obtain rfl := move.arrival_eq
      obtain ⟨deeds, blocks, hflat, hconduct, hsequence⟩ := ih _ replay
      have hstep : Flattens machine.dispatches machine.dispatches machine.dispatches
          [machine.stepping step] [.took step] [] :=
        .of_own (List.forall_mem_singleton.mpr ⟨rfl, rfl⟩)
      exact ⟨_, blocks, hstep.append hflat (Nat.le_refl _) (.inl rfl), .pass hconduct, hsequence⟩
  | perform _ action same _ ihaction ihrest => exact unfolds_perform action same ihaction ihrest
  | overtaken _ action other ihaction => exact unfolds_overtaken action other ihaction
  | unready _ => exact .inl ⟨_, rfl⟩
  | unhandled _ _ _ => exact .inl ⟨_, rfl⟩
  | @dispatch _ current transition _ _ _ active ok _ ih =>
    obtain ⟨block, blocks, hoccasion, hsteps, hcarried, hflat, hsequence⟩ :=
      carried_of_walk (Tree.leads_of_transition ok) ih
    exact .inr ⟨current, block, blocks, active, ⟨hcarried, transition, ok, hoccasion, hsteps⟩,
      hflat, hsequence⟩
  | alreadyRunning _ => exact .inl ⟨_, rfl⟩
  | leafless _ _ => exact .inl ⟨_, rfl⟩
  | @start leaf _ _ _ ok _ ih =>
    obtain ⟨block, blocks, hoccasion, hsteps, hcarried, hflat, hsequence⟩ :=
      carried_of_walk (Tree.leads_of_start ok) ih
    exact .inr ⟨block, blocks, ⟨hcarried, leaf, ok, hoccasion, hsteps⟩, hflat, hsequence⟩

end Course

/-! ## Calls -/

/-- **What a call unfolds to**: nothing if it is refused, and otherwise a dispatch
of its own, followed by those that actions have begun. -/
inductive Call.Unfolds (tree : Tree) (listeners : List (Handle × L)) :
    Call C L → Option Path → List (Block L) → Option Path → Prop where
  /-- It begins no dispatch. -/
  | none {call : Call C L} {active : Option Path} : Unfolds tree listeners call active [] active
  /-- It is a start. -/
  | start {active last : Option Path} {first : Block L} {later : List (Block L)}
    (started : first.Started tree listeners)
    (rest : Sequence tree listeners first.stop later last) :
    Unfolds tree listeners .start active (first :: later) last
  /-- It sends an event. -/
  | send {event : String} {current : Path} {last : Option Path} {first : Block L}
    {later : List (Block L)} (sent : first.Sent tree listeners current event)
    (rest : Sequence tree listeners first.stop later last) :
    Unfolds tree listeners (.send event) (some current) (first :: later) last

/-- All dispatches of a call have been carried out. -/
theorem Call.Unfolds.carried {tree : Tree} {listeners : List (Handle × L)} {call : Call C L}
    {active last : Option Path} {blocks : List (Block L)}
    (h : call.Unfolds tree listeners active blocks last) :
    ∀ block ∈ blocks, block.Carried listeners := by
  cases h with
  | none => exact fun _ hmem => nomatch hmem
  | start started rest => exact List.forall_mem_cons.mpr ⟨started.toCarried, rest.carried⟩
  | send sent rest => exact List.forall_mem_cons.mpr ⟨sent.toCarried, rest.carried⟩

/-- **A journal is a sequence of dispatches.** -/
structure Episode.Flat (episode : Episode C L) : Prop where
  /-- They are numbered in the order in which they begin. -/
  numbers : episode.journal.blocks.map (·.number)
    = List.range' (episode.before.dispatches + 1)
      (episode.after.dispatches - episode.before.dispatches)
  /-- They take their steps in this order, each of them in one go. -/
  taken : episode.journal.taken = episode.journal.blocks.flatMap (·.numbered)
  /-- They take the first of the steps that they were to take, at least one. The last
  of them is the first whose action sends an event that is handled; where there is
  none, they take all steps and tell the listeners. -/
  carried : ∀ block ∈ episode.journal.blocks, block.taken ≠ [] ∧ block.taken <+: block.steps
    ∧ Conduct episode.before.subscribers.listeners block.occasion block.steps block.deeds
  /-- The first is the dispatch of the call, and each of the others is begun by an
  event that is sent where the one before it has stopped. -/
  unfolds : episode.call.Unfolds episode.before.tree episode.before.subscribers.listeners
    episode.before.active episode.journal.blocks episode.after.active
  /-- There are some if the call succeeds. -/
  ne_nil_iff : episode.journal.blocks ≠ [] ↔ ∃ leaf, episode.answer = some (.ok leaf)

namespace Episode

variable {episode : Episode C L}

/-- A call that does nothing. -/
theorem Flat.of_nil (hjournal : episode.journal = [])
    (hdispatches : episode.after.dispatches = episode.before.dispatches)
    (hactive : episode.after.active = episode.before.active)
    (hanswer : ∀ leaf, episode.answer ≠ some (.ok leaf)) : episode.Flat := by
  have hblocks : episode.journal.blocks = [] := by
    rw [hjournal]
    rfl
  refine ⟨?_, ?_, ?_, ?_, ?_⟩
  · rw [hblocks, hdispatches, Nat.sub_self]
    rfl
  · rw [hjournal]
    rfl
  · rw [hblocks]
    exact nofun
  · rw [hblocks, hactive]
    exact .none
  · exact iff_of_false (not_not_intro hblocks) fun ⟨leaf, hok⟩ => hanswer leaf hok

/-- A call that begins a dispatch. -/
theorem Flat.of_flattens {first : Block L} {later : List (Block L)}
    (hflat : ∀ own ≤ episode.before.dispatches, Flattens own episode.before.dispatches
      episode.after.dispatches episode.journal [] (first :: later))
    (hunfolds : episode.call.Unfolds episode.before.tree episode.before.subscribers.listeners
      episode.before.active (first :: later) episode.after.active)
    (hanswer : (∃ leaf, episode.answer = some (.ok leaf))
      ↔ episode.before.dispatches < episode.after.dispatches) : episode.Flat := by
  have hzero := hflat 0 (Nat.zero_le _)
  have hblocks := hzero.blocks_eq
  have hfirst := hzero.number_mem List.mem_cons_self
  refine ⟨?_, ?_, ?_, ?_, ?_⟩
  · rw [hblocks]
    exact hzero.numbers
  · rw [hblocks]
    exact hzero.taken
  · rw [hblocks]
    intro block hmem
    obtain ⟨hne, hconduct⟩ := hunfolds.carried block hmem
    exact ⟨hne, hconduct.taken_isPrefix, hconduct⟩
  · rw [hblocks]
    exact hunfolds
  · rw [hblocks, hanswer]
    exact iff_of_true (List.cons_ne_nil _ _) (Nat.lt_of_lt_of_le hfirst.1 hfirst.2)

/-- **Nested dispatches flatten to a sequence of dispatches**, each of which takes
steps until one of its actions sends an event that is handled, or until it has
taken them all and tells the listeners. -/
theorem Occurs.flat (h : episode.Occurs) : episode.Flat := by
  cases h using Occurs.byCourse with
  | start _ course =>
    have hok := Machine.Outcome.exists_ok_iff course.settles
    obtain ⟨error, rfl⟩ | ⟨block, blocks, hstarted, hflat, hsequence⟩ := course.unfolds
    · exact .of_nil rfl rfl rfl nofun
    · exact .of_flattens hflat (.start hstarted hsequence) (by simpa using hok)
  | @send _ event machine _ _ course =>
    have hok := Machine.Outcome.exists_ok_iff course.settles
    obtain ⟨error, rfl⟩ | ⟨current, block, blocks, hactive, hsent, hflat, hsequence⟩ :=
      course.unfolds
    · exact .of_nil rfl rfl rfl nofun
    · refine .of_flattens hflat ?_ (by simpa using hok)
      show Call.Unfolds _ _ _ machine.active _ _
      rw [hactive]
      exact .send hsent hsequence
  | change =>
    exact .of_nil rfl Machine.dispatches_change Machine.active_change nofun

/-- When the lamp is turned on there are two dispatches, one after the other: the one
that turns it on, and the one in which it fades. -/
theorem Occurs.flat_lamp : ∃ episode : Episode Unit String, episode.before = Lamp.off
    ∧ episode.call = .send "flip" ∧ episode.Flat
    ∧ episode.journal.blocks.map (·.number) = [2, 3] := by
  have hsend : (Lamp.off.send 1 "flip").map Machine.Outcome.machine = some Lamp.dim := rfl
  obtain ⟨turned, hturned, heq⟩ := Option.map_eq_some_iff.mp hsend
  have hflat := Occurs.flat (.send hturned)
  refine ⟨_, rfl, rfl, hflat, hflat.numbers.trans ?_⟩
  show List.range' 2 (turned.machine.dispatches - 1) = [2, 3]
  rw [heq]
  rfl

end Episode

end Statechart
