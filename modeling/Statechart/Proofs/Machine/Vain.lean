import Statechart.Proofs.Machine.Rest

/-!
# Events sent in vain

An action may send events that nothing handles, and go on with the error it is
answered. As long as all events that are sent during a dispatch are refused, the
machine stays where the dispatch has brought it, so what is refused, and for which
reason, is known beforehand: it depends on the active path and on the event
(`Tree.refusal?`). An action is then no more than a change of the context
(`Program.context?`), and a dispatch is known in every detail: it takes all of its
steps, each action changes the context in turn, and the listeners are told
(`Course.plain_walk`). Conversely, wherever the actions of a dispatch turn out to
send in vain, the dispatch has a course (`exists_course_walk`).

Apart from the answers that actions are given, the journal of such a dispatch is its
`Machine.trail`.
-/

namespace Statechart

variable {C L : Type}

open Machine (Outcome)

/-! ## Refused events -/

/-- Why an event is refused while a path is active; none if it is handled. -/
def Tree.refusal? (tree : Tree) (path : Path) (event : String) : Option MachineError :=
  match tree.transition path event with
  | .error error => some error
  | .ok _ => none

/-- **What an action makes of the context** if every event that it sends is refused;
none if one is handled. -/
def Program.context? (refusal : String → Option MachineError) : Program C → C → Option C
  | .done, context => some context
  | .read next, context => (next context).context? refusal context
  | .write context next, _ => next.context? refusal context
  | .send event next, context =>
    (refusal event).bind fun error => (next (.error error)).context? refusal context

/-! ## Journals without answers -/

namespace Happening

/-- Whether an action has an answer. -/
def isAnswer : Happening L → Bool
  | .answered _ _ _ _ => true
  | _ => false

/-- Whether an action has the answer that what it sent was handled. -/
def isSuccess : Happening L → Bool
  | .answered _ _ _ (.ok _) => true
  | _ => false

theorem isSuccess_eq_false {happening : Happening L} (h : happening.isAnswer = false) :
    happening.isSuccess = false := by
  unfold isSuccess
  split
  · exact nomatch h
  · rfl

end Happening

namespace Journal

/-- **Whatever an action sent, it sent in vain.** -/
def Vain (journal : Journal L) : Prop := ∀ entry ∈ journal, entry.happening.isSuccess = false

/-- What has happened, except that actions were answered. -/
def withoutAnswers (journal : Journal L) : Journal L :=
  journal.filter fun entry => !entry.happening.isAnswer

variable {journal journal' : Journal L}

instance : Decidable journal.Vain := List.decidableBAll _ _

theorem vain_append : Vain (journal ++ journal') ↔ Vain journal ∧ Vain journal' :=
  List.forall_mem_append

theorem vain_cons {entry : Journal.Entry L} (h : entry.happening.isSuccess = false) :
    Vain (entry :: journal) ↔ Vain journal :=
  List.forall_mem_cons.trans (and_iff_right h)

theorem vain_of_forall (h : ∀ entry ∈ journal, entry.happening.isAnswer = false) : Vain journal :=
  fun entry hmem => Happening.isSuccess_eq_false (h entry hmem)

@[simp] theorem withoutAnswers_append :
    withoutAnswers (journal ++ journal') = withoutAnswers journal ++ withoutAnswers journal' :=
  List.filter_append _ _

theorem withoutAnswers_cons {entry : Journal.Entry L} (h : entry.happening.isAnswer = false) :
    withoutAnswers (entry :: journal) = entry :: withoutAnswers journal :=
  List.filter_cons_of_pos (by simp [h])

theorem withoutAnswers_eq_self (h : ∀ entry ∈ journal, entry.happening.isAnswer = false) :
    withoutAnswers journal = journal :=
  List.filter_eq_self.mpr fun entry hmem => by simp [h entry hmem]

end Journal

open Journal

/-! ## The trail of a dispatch -/

namespace Machine

/-- What an action of a dispatch makes of the context, if the step has one. -/
def perform? (machine : Machine C L) (occasion : Occasion) (context : C) (step : Step) :
    Option C :=
  match machine.bindings.get? step with
  | none => some context
  | some bound =>
    (bound.action ⟨step, occasion⟩).context? (machine.tree.refusal? step.arrival) context

/-- The name of the action of a step, if the step has one. -/
def nameAt? (machine : Machine C L) (step : Step) : Option String :=
  (machine.bindings.get? step).map Bound.name

/-- That the action of a step runs, if the step has one. -/
def actingAt (machine : Machine C L) (occasion : Occasion) (step : Step) : Journal L :=
  ((machine.nameAt? step).map fun name => machine.acting name ⟨step, occasion⟩).toList

/-- **What happens while a dispatch takes its steps**, except that actions are
answered. -/
def trail (occasion : Occasion) : List Step → Machine C L → Journal L
  | [], machine =>
    (machine.movedTo occasion.leaf).tell machine.dispatches occasion.leaf occasion.event
  | step :: steps, machine =>
    machine.stepping step :: machine.actingAt occasion step
      ++ trail occasion steps (machine.movedTo step.arrival)

/-- A machine that has come to a leaf. -/
def arrivedAt (machine : Machine C L) (leaf : Path) (context : C) : Machine C L :=
  { machine with active := some leaf, context }

variable {machine other : Machine C L} {outcome : Outcome C L}

/-- The trail of a dispatch tells nothing of the context, nor of what the actions
are, other than their names. -/
theorem trail_congr {occasion : Occasion} {steps : List Step}
    (hconfiguration : other.toConfiguration = machine.toConfiguration)
    (hsubscribers : other.subscribers = machine.subscribers)
    (hdispatches : other.dispatches = machine.dispatches)
    (hnames : other.nameAt? = machine.nameAt?) :
    trail occasion steps other = trail occasion steps machine := by
  induction steps generalizing machine other with
  | nil =>
    unfold trail tell note movedTo
    rw [hconfiguration, hsubscribers, hdispatches]
  | cons step steps ih =>
    have hmoved : (other.movedTo step.arrival).toConfiguration
        = (machine.movedTo step.arrival).toConfiguration := by
      unfold movedTo
      rw [hconfiguration]
    unfold trail actingAt
    rw [hnames, ih hmoved hsubscribers hdispatches hnames]
    unfold stepping acting note
    rw [hmoved, hdispatches]

/-- Telling the listeners answers no action. -/
theorem isAnswer_of_mem_tell {number : Nat} {leaf : Path} {event : String} :
    ∀ entry ∈ machine.tell number leaf event, entry.happening.isAnswer = false := by
  intro entry hmem
  obtain ⟨_, -, rfl⟩ := List.mem_map.mp hmem
  rfl

/-- A call that fails is refused. -/
theorem Outcome.eq_refuse {error : MachineError}
    (h : outcome.Refused machine ∨ outcome.Arrives machine)
    (herror : outcome.result = .error error) : outcome = machine.refuse error := by
  obtain ⟨other, rfl⟩ | ⟨-, leaf, hok, -⟩ := h
  · obtain rfl : other = error := Except.error.inj herror
    rfl
  · exact nomatch hok.symm.trans herror

end Machine

open Machine

/-- **An event is refused for the reason that the active path gives**, and is
handled where there is none. -/
theorem Course.refusal?_eq {event : String} {path : Path} {machine : Machine C L}
    {outcome : Outcome C L} (h : Course (.send event) machine outcome)
    (hrunning : machine.status = .running) (hactive : machine.active = some path)
    {error : MachineError} (herror : outcome.result = .error error) :
    machine.tree.refusal? path event = some error := by
  cases h with
  | unready unready =>
    obtain hstopped | hnone := unready
    · exact nomatch hrunning.symm.trans hstopped
    · exact nomatch hactive.symm.trans hnone
  | unhandled _ active refused =>
    obtain rfl := Option.some.inj (active.symm.trans hactive)
    obtain rfl := Except.error.inj herror
    unfold Tree.refusal?
    rw [refused]
  | dispatch _ _ ok walk =>
    obtain ⟨leaf, hleaf, -⟩ := walk.settles rfl (Tree.leads_of_transition ok).hasLeaf
    exact nomatch hleaf.symm.trans herror

theorem course_of_refusal? {event : String} {path : Path} {machine : Machine C L}
    {error : MachineError} (hrunning : machine.status = .running)
    (hactive : machine.active = some path)
    (h : machine.tree.refusal? path event = some error) :
    Course (.send event) machine (machine.refuse error) := by
  refine .unhandled hrunning hactive ?_
  unfold Tree.refusal? at h
  split at h
  · rename_i refused
    exact Option.some.inj h ▸ refused
  · exact nomatch h

/-! ## Actions -/

/-- **An action that sends in vain only changes the context.** -/
theorem Course.plain_act {number : Nat} {name : String} {program : Program C} {path : Path}
    {machine : Machine C L} {outcome : Outcome C L}
    (h : Course (.act number name program) machine outcome)
    (hrunning : machine.status = .running) (hactive : machine.active = some path)
    (hvain : outcome.journal.Vain) :
    ∃ context, program.context? (machine.tree.refusal? path) machine.context = some context
      ∧ outcome.machine = { machine with context } ∧ outcome.journal.withoutAnswers = [] := by
  induction program generalizing machine outcome with
  | done =>
    cases h
    exact ⟨machine.context, rfl, rfl, rfl⟩
  | read next ih =>
    cases h with
    | read rest => exact ih _ rest hrunning hactive hvain
  | write context next ih =>
    cases h with
    | write rest => exact ih rest hrunning hactive hvain
  | send event next ih =>
    cases h with
    | @ask _ _ _ _ _ reply outcome asked rest =>
      obtain ⟨hreply, hrest⟩ := vain_append.mp hvain
      cases hresult : reply.result with
      | ok leaf =>
        -- the answer in the journal would be that the event was handled
        have hanswer := hreply _ (List.mem_append_right _ (List.mem_singleton_self _))
        unfold answering note at hanswer
        rw [hresult] at hanswer
        exact nomatch hanswer
      | error error =>
        obtain rfl := Machine.Outcome.eq_refuse asked.settles hresult
        obtain ⟨context, hcontext, hmachine, hjournal⟩ := ih _ rest hrunning hactive hrest
        refine ⟨context, ?_, hmachine, hjournal⟩
        rw [Program.context?, asked.refusal?_eq hrunning hactive rfl]
        exact hcontext

/-- **An action whose events would all be refused has a course.** -/
theorem exists_course_act {number : Nat} {name : String} {program : Program C} {path : Path}
    {machine : Machine C L} {context : C} (hrunning : machine.status = .running)
    (hactive : machine.active = some path)
    (h : program.context? (machine.tree.refusal? path) machine.context = some context) :
    ∃ outcome : Outcome C L, Course (.act number name program) machine outcome
      ∧ outcome.journal.Vain := by
  induction program generalizing machine with
  | done => exact ⟨_, .done, fun _ hmem => nomatch hmem⟩
  | read next ih =>
    obtain ⟨outcome, hcourse, hvain⟩ := ih _ hrunning hactive h
    exact ⟨outcome, .read hcourse, hvain⟩
  | write written next ih =>
    obtain ⟨outcome, hcourse, hvain⟩ := @ih { machine with context := written } hrunning hactive h
    exact ⟨outcome, .write hcourse, hvain⟩
  | send event next ih =>
    obtain ⟨error, hrefusal, hnext⟩ := Option.bind_eq_some_iff.mp h
    obtain ⟨outcome, hcourse, hvain⟩ := ih _ hrunning hactive hnext
    refine ⟨_, .ask (course_of_refusal? hrunning hactive hrefusal) hcourse, ?_⟩
    exact vain_append.mpr ⟨List.forall_mem_singleton.mpr rfl, hvain⟩

/-! ## Dispatches -/

/-- **A dispatch whose actions send in vain takes all its steps**, with the context
going from action to action, and tells the listeners. -/
theorem Course.plain_walk {occasion : Occasion} {steps : List Step} {machine : Machine C L}
    {outcome : Outcome C L} (h : Course (.walk occasion steps) machine outcome)
    (hrunning : machine.status = .running) (hvain : outcome.journal.Vain) :
    ∃ context, steps.foldlM (machine.perform? occasion) machine.context = some context
      ∧ outcome.result = .ok occasion.leaf
      ∧ outcome.machine = machine.arrivedAt occasion.leaf context
      ∧ outcome.journal.withoutAnswers = trail occasion steps machine := by
  induction steps generalizing machine outcome with
  | nil =>
    cases h
    exact ⟨machine.context, rfl, rfl, rfl, withoutAnswers_eq_self isAnswer_of_mem_tell⟩
  | cons step steps ih =>
    cases h with
    | pass unbound rest =>
      obtain ⟨context, hcontext, hresult, hmachine, hjournal⟩ :=
        ih rest hrunning ((vain_cons rfl).mp hvain)
      refine ⟨context, ?_, hresult, hmachine, ?_⟩
      · rw [List.foldlM_cons, perform?, unbound]
        exact hcontext
      · rw [trail, actingAt, nameAt?, unbound, ← hjournal]
        exact withoutAnswers_cons rfl
    | @perform _ _ _ _ _ acted outcome isBound action same rest =>
      obtain ⟨hacted, hrest⟩ := vain_append.mp
        ((vain_cons rfl).mp ((vain_cons rfl).mp hvain))
      obtain ⟨middle, hmiddle, heq, hnone⟩ := action.plain_act hrunning rfl hacted
      rw [heq] at rest
      obtain ⟨context, hcontext, hresult, hmachine, hjournal⟩ := ih rest hrunning hrest
      refine ⟨context, ?_, hresult, hmachine, ?_⟩
      · rw [List.foldlM_cons, perform?, isBound]
        exact Option.bind_eq_some_iff.mpr ⟨middle, hmiddle, hcontext⟩
      · have htail : withoutAnswers (acted.journal ++ outcome.journal)
            = trail occasion steps (machine.movedTo step.arrival) := by
          rw [withoutAnswers_append, hnone, hjournal]
          exact trail_congr rfl rfl rfl rfl
        rw [trail, actingAt, nameAt?, isBound, ← htail]
        exact (withoutAnswers_cons rfl).trans (congrArg _ (withoutAnswers_cons rfl))
    | overtaken isBound action other =>
      -- an action that sends in vain begins no dispatch
      have hacted := (vain_cons rfl).mp ((vain_cons rfl).mp hvain)
      obtain ⟨middle, -, heq, -⟩ := action.plain_act hrunning rfl hacted
      rw [heq] at other
      exact absurd rfl other

/-- **A dispatch whose actions would all send in vain has a course.** -/
theorem exists_course_walk {occasion : Occasion} {steps : List Step} {machine : Machine C L}
    {context : C} (hrunning : machine.status = .running)
    (h : steps.foldlM (machine.perform? occasion) machine.context = some context) :
    ∃ outcome : Outcome C L, Course (.walk occasion steps) machine outcome
      ∧ outcome.journal.Vain := by
  induction steps generalizing machine with
  | nil => exact ⟨_, .arrive, vain_of_forall isAnswer_of_mem_tell⟩
  | cons step steps ih =>
    rw [List.foldlM_cons] at h
    obtain ⟨middle, hmiddle, hrest⟩ := Option.bind_eq_some_iff.mp h
    unfold perform? at hmiddle
    split at hmiddle
    · rename_i unbound
      obtain rfl := Option.some.inj hmiddle
      obtain ⟨outcome, hcourse, hvain⟩ := @ih (machine.movedTo step.arrival) hrunning hrest
      exact ⟨_, .pass unbound hcourse, (vain_cons rfl).mpr hvain⟩
    · rename_i bound isBound
      obtain ⟨acted, action, hacted⟩ :=
        @exists_course_act _ _ machine.dispatches bound.name _ _ (machine.movedTo step.arrival)
          _ hrunning rfl hmiddle
      obtain ⟨context', hcontext, heq, -⟩ := action.plain_act hrunning rfl hacted
      obtain rfl := Option.some.inj (hmiddle.symm.trans hcontext)
      obtain ⟨outcome, hcourse, hvain⟩ :=
        @ih { machine.movedTo step.arrival with context := middle } hrunning hrest
      rw [← heq] at hcourse
      refine ⟨_, .perform isBound action ?_ hcourse, ?_⟩
      · rw [heq]
        rfl
      · exact (vain_cons rfl).mpr ((vain_cons rfl).mpr (vain_append.mpr ⟨hacted, hvain⟩))

/-- **What a dispatch comes to whose actions send in vain**: from a machine, with an
occasion and the steps to take. -/
structure Machine.Outcome.Plain (outcome : Outcome C L) (machine : Machine C L)
    (occasion : Occasion) (steps : List Step) : Prop where
  /-- The actions have changed the context one after the other. -/
  context : steps.foldlM (machine.perform? occasion) machine.context
    = some outcome.machine.context
  /-- The leaf is the answer. -/
  result : outcome.result = .ok occasion.leaf
  /-- The leaf is active, and nothing else but the context has changed. -/
  machine_eq : outcome.machine
    = (machine.begun occasion).arrivedAt occasion.leaf outcome.machine.context
  /-- The steps were taken, and the listeners told. -/
  journal : outcome.journal.withoutAnswers
    = machine.beginning occasion steps :: trail occasion steps (machine.begun occasion)

/-- A dispatch that sends in vain after its beginning comes to what is plain. -/
theorem Course.plain_of_walk {occasion : Occasion} {steps : List Step} {machine : Machine C L}
    {outcome : Outcome C L} (h : Course (.walk occasion steps) (machine.begun occasion) outcome)
    (hvain : outcome.journal.Vain) :
    (outcome.after [machine.beginning occasion steps]).Plain machine occasion steps := by
  obtain ⟨context, hcontext, hresult, hmachine, hjournal⟩ := h.plain_walk rfl hvain
  have heq : outcome.machine.context = context := congrArg Machine.context hmachine
  refine ⟨?_, hresult, ?_, ?_⟩
  · exact heq ▸ hcontext
  · exact heq ▸ hmachine
  · exact (withoutAnswers_cons rfl).trans (congrArg _ hjournal)

/-! ## A lamp that cannot glow

The lamp again, with an action that asks for more than the lamp can do when it is
turned on, and counts how often it is refused. -/

namespace Lamp

/-- The action: it asks the lamp to glow. -/
def wish : Action Nat := fun _ => .send "glow" fun
  | .ok _ => .done
  | .error _ => .read fun count => .write (count + 1) .done

/-- The lamp, with a context for the number of refusals and with one listener. -/
def wishful : Machine Nat String where
  tree := machine.tree
  context := 0
  bindings := ⟨[(⟨.entry, ⟨["on"]⟩⟩, ⟨"settle", wish⟩)]⟩
  subscribers := ⟨1, [(⟨0⟩, "watcher")]⟩

/-- The wishful lamp once it has been started. -/
def dark : Machine Nat String :=
  { wishful with status := .running, active := some ⟨["off"]⟩, dispatches := 1 }

/-- The wishful lamp once it has been turned on, and has been refused once. -/
def bright : Machine Nat String :=
  { wishful with
    status := .running
    active := some ⟨["on", "bright"]⟩
    history := some ⟨⟨["off"]⟩, "flip"⟩
    context := 1
    dispatches := 2 }

end Lamp

end Statechart
