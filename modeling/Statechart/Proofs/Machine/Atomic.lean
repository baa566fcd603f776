import Statechart.Proofs.Machine.Refusal
import Statechart.Proofs.Machine.Vain

/-!
# A failed call does nothing

A start or a send that fails leaves the machine exactly as it was, down to its
context, its listeners and the number of dispatches, and nothing happens in the
course of it. This is so between two calls as well as in the midst of a dispatch,
where an action sends an event from a path that is half exited or half entered.

So an action that sends an event in vain might as well not send it, provided that it
goes on with the error that it would have been answered. `Machine.silenced` makes
such a machine of any machine: its actions are `Program.Silent`, they send nothing.
A call during which everything was sent in vain goes the same way on the silenced
machine, and the two journals differ in the answers only (`Episode.Occurs.atomic`).
-/

namespace Statechart

variable {C L : Type}

open Machine (Outcome)
open Journal

/-! ## Silent actions -/

namespace Program

/-- **An action that sends nothing**, whatever it reads. -/
inductive Silent : Program C → Prop where
  | done : Silent .done
  | read {next : C → Program C} (h : ∀ context, Silent (next context)) : Silent (.read next)
  | write {context : C} {next : Program C} (h : Silent next) : Silent (.write context next)

/-- **An action that does not send** what the other one sends, and goes on with the
error that it would have been answered. It ends where there would have been none. -/
def silenced (refusal : String → Option MachineError) : Program C → Program C
  | .done => .done
  | .read next => .read fun context => (next context).silenced refusal
  | .write context next => .write context (next.silenced refusal)
  | .send event next =>
    match refusal event with
    | some error => (next (.error error)).silenced refusal
    | none => .done

variable (refusal : String → Option MachineError)

theorem silent_silenced (program : Program C) : (program.silenced refusal).Silent := by
  induction program with
  | done => exact .done
  | read next ih => exact .read ih
  | write context next ih => exact .write ih
  | send event next ih =>
    rw [silenced]
    split
    · exact ih _
    · exact .done

/-- **A silenced action makes the same of the context** as one that sends in vain. -/
theorem context?_silenced {program : Program C} {context result : C}
    (h : program.context? refusal context = some result) :
    (program.silenced refusal).context? refusal context = some result := by
  induction program generalizing context with
  | done => exact h
  | read next ih => exact ih _ h
  | write written next ih => exact ih h
  | send event next ih =>
    obtain ⟨error, hrefusal, hnext⟩ := Option.bind_eq_some_iff.mp h
    rw [silenced, hrefusal]
    exact ih _ hnext

end Program

/-- The same steps with other actions. -/
def Bindings.map {α β : Type} (bindings : Bindings α) (change : Bound α → Bound β) :
    Bindings β :=
  ⟨bindings.table.map fun (step, bound) => (step, change bound)⟩

theorem Bindings.get?_map {α β : Type} (bindings : Bindings α) (change : Bound α → Bound β)
    (step : Step) : (bindings.map change).get? step = (bindings.get? step).map change := by
  obtain ⟨table⟩ := bindings
  show (table.map _).lookup step = (table.lookup step).map change
  induction table with
  | nil => rfl
  | cons entry table ih =>
    obtain ⟨first, bound⟩ := entry
    rw [List.map_cons, List.lookup_cons, List.lookup_cons, ih]
    cases step == first <;> rfl

namespace Machine

/-- The action under the same name that does not send, but goes on with the error
that its step gives reason for. -/
def silence (machine : Machine C L) (bound : Bound (Action C)) : Bound (Action C) where
  name := bound.name
  action := fun scope =>
    (bound.action scope).silenced (machine.tree.refusal? scope.step.arrival)

/-- **The machine whose actions do not send**, but go on with the errors that they
would have been answered. -/
def silenced (machine : Machine C L) : Machine C L :=
  { machine with bindings := machine.bindings.map machine.silence }

variable {machine : Machine C L}

@[simp] theorem get?_silenced (step : Step) :
    machine.silenced.bindings.get? step = (machine.bindings.get? step).map machine.silence :=
  machine.bindings.get?_map machine.silence step

theorem nameAt?_silenced (machine : Machine C L) : machine.silenced.nameAt? = machine.nameAt? := by
  funext step
  rw [nameAt?, get?_silenced, Option.map_map]
  rfl

theorem perform?_silenced {occasion : Occasion} {context result : C} {step : Step}
    (h : machine.perform? occasion context step = some result) :
    machine.silenced.perform? occasion context step = some result := by
  unfold perform? at h ⊢
  rw [get?_silenced]
  cases hbound : machine.bindings.get? step with
  | none =>
    rw [hbound] at h
    exact h
  | some bound =>
    rw [hbound] at h
    exact Program.context?_silenced _ h

theorem foldlM_perform?_silenced {occasion : Occasion} {context result : C} {steps : List Step}
    (h : steps.foldlM (machine.perform? occasion) context = some result) :
    steps.foldlM (machine.silenced.perform? occasion) context = some result := by
  induction steps generalizing context with
  | nil => exact h
  | cons step steps ih =>
    obtain ⟨middle, hmiddle, hrest⟩ := Option.bind_eq_some_iff.mp h
    exact Option.bind_eq_some_iff.mpr ⟨middle, perform?_silenced hmiddle, ih hrest⟩

/-- **A machine whose actions send nothing.** -/
def Silent (machine : Machine C L) : Prop :=
  ∀ step bound, machine.bindings.get? step = some bound → ∀ scope, (bound.action scope).Silent

theorem silent_silenced (machine : Machine C L) : machine.silenced.Silent := by
  intro step bound hbound scope
  rw [get?_silenced] at hbound
  obtain ⟨loud, -, rfl⟩ := Option.map_eq_some_iff.mp hbound
  exact Program.silent_silenced _ _

theorem Silent.of_keeps {later : Machine C L} (h : machine.Silent)
    (hkeeps : machine.Keeps later) : later.Silent := by
  unfold Silent
  rw [hkeeps.bindings]
  exact h

end Machine

open Machine

/-- An action that sends nothing leaves no trace. -/
theorem Course.journal_eq_nil {number : Nat} {name : String} {program : Program C}
    {machine : Machine C L} {outcome : Outcome C L}
    (h : Course (.act number name program) machine outcome) (hsilent : program.Silent) :
    outcome.journal = [] := by
  induction hsilent generalizing machine outcome with
  | done =>
    cases h
    rfl
  | read _ ih =>
    cases h with
    | read rest => exact ih _ rest
  | write _ ih =>
    cases h with
    | write rest => exact ih rest

/-- **Where actions send nothing, none is answered.** -/
theorem Course.isAnswer_eq_false {occasion : Occasion} {steps : List Step}
    {machine : Machine C L} {outcome : Outcome C L}
    (h : Course (.walk occasion steps) machine outcome) (hsilent : machine.Silent) :
    ∀ entry ∈ outcome.journal, entry.happening.isAnswer = false := by
  induction steps generalizing machine outcome with
  | nil =>
    cases h
    exact isAnswer_of_mem_tell
  | cons step steps ih =>
    cases h with
    | pass unbound rest => exact List.forall_mem_cons.mpr ⟨rfl, ih rest hsilent⟩
    | @perform _ _ _ _ _ acted outcome isBound action same rest =>
      have hnil := action.journal_eq_nil (hsilent _ _ isBound _)
      have hkept := hsilent.of_keeps ((keeps_movedTo machine step.arrival).trans action.keeps)
      refine List.forall_mem_cons.mpr ⟨rfl, List.forall_mem_cons.mpr ⟨rfl, ?_⟩⟩
      show ∀ entry ∈ acted.journal ++ outcome.journal, _
      rw [hnil]
      exact ih rest hkept
    | overtaken isBound action other =>
      have hnil := action.journal_eq_nil (hsilent _ _ isBound _)
      refine List.forall_mem_cons.mpr ⟨rfl, List.forall_mem_cons.mpr ⟨rfl, ?_⟩⟩
      rw [hnil]
      exact fun _ hmem => nomatch hmem

/-! ## The same call on the silenced machine -/

namespace Machine.Outcome

/-- An outcome on the silenced machine: no action was answered. -/
def silenced (outcome : Outcome C L) : Outcome C L :=
  ⟨outcome.result, outcome.machine.silenced, outcome.journal.withoutAnswers⟩

variable {machine : Machine C L} {outcome : Outcome C L}

/-- **A dispatch whose actions send in vain goes the same way without sending.** -/
theorem Plain.exists_walk {occasion : Occasion} {steps : List Step}
    (h : outcome.Plain machine occasion steps) :
    ∃ walked, Course (.walk occasion steps) (machine.silenced.begun occasion) walked
      ∧ outcome.silenced = walked.after [machine.silenced.beginning occasion steps] := by
  have hfold := foldlM_perform?_silenced h.context
  obtain ⟨walked, hwalked, hvain⟩ :=
    @exists_course_walk _ _ occasion steps (machine.silenced.begun occasion) _ rfl hfold
  obtain ⟨context, hcontext, hresult, hmachine, hjournal⟩ := hwalked.plain_walk rfl hvain
  obtain rfl := Option.some.inj (hfold.symm.trans hcontext)
  refine ⟨walked, hwalked, ?_⟩
  have hanswers := hwalked.isAnswer_eq_false machine.silent_silenced
  have htrail : trail occasion steps (machine.silenced.begun occasion)
      = trail occasion steps (machine.begun occasion) :=
    trail_congr rfl rfl rfl machine.nameAt?_silenced
  rw [withoutAnswers_eq_self hanswers, htrail] at hjournal
  unfold silenced Outcome.after
  rw [h.result, h.journal, hresult, hmachine, hjournal, h.machine_eq]
  rfl

end Machine.Outcome

namespace Episode

/-- **The same call on the silenced machine**, with the same answer. -/
def silenced (episode : Episode C L) : Episode C L where
  call := episode.call
  before := episode.before.silenced
  answer := episode.answer
  after := episode.after.silenced
  journal := episode.journal.withoutAnswers

end Episode

/-- A start that sends in vain has the same course on the silenced machine. -/
theorem Course.silenced_start {machine : Machine C L} {outcome : Outcome C L}
    (h : Course .start machine outcome) (hvain : outcome.journal.Vain) :
    Course .start machine.silenced outcome.silenced := by
  cases h with
  | alreadyRunning running => exact .alreadyRunning running
  | leafless stopped refused => exact .leafless stopped refused
  | start stopped ok walk =>
    have hplain := walk.plain_of_walk ((vain_cons rfl).mp hvain)
    obtain ⟨walked, hwalked, heq⟩ := hplain.exists_walk
    rw [heq]
    exact .start stopped ok hwalked

/-- A send that sends in vain has the same course on the silenced machine. -/
theorem Course.silenced_send {event : String} {machine : Machine C L} {outcome : Outcome C L}
    (h : Course (.send event) machine outcome) (hvain : outcome.journal.Vain) :
    Course (.send event) machine.silenced outcome.silenced := by
  cases h with
  | unready unready => exact .unready unready
  | unhandled running active refused => exact .unhandled running active refused
  | dispatch running active ok walk =>
    have hplain := walk.plain_of_walk ((vain_cons rfl).mp hvain)
    obtain ⟨walked, hwalked, heq⟩ := hplain.exists_walk
    rw [heq]
    exact .dispatch running active ok hwalked

namespace Episode

variable {episode : Episode C L}

/-- **Whatever is sent in vain need not be sent.** -/
theorem Occurs.silenced (h : episode.Occurs) (hvain : episode.journal.Vain) :
    episode.silenced.Occurs := by
  cases h using Occurs.byCourse with
  | start _ course => exact .of_start (course.silenced_start hvain)
  | send _ course => exact .of_send (course.silenced_send hvain)
  | change change machine =>
    have heq : (machine.change change).silenced = machine.silenced.change change := by
      cases change <;> rfl
    unfold Episode.silenced
    rw [heq]
    exact .change change machine.silenced

/-- **A call that fails does nothing.** -/
theorem Occurs.after_eq_before (h : episode.Occurs) {error : MachineError}
    (herror : episode.answer = some (.error error)) :
    episode.after = episode.before ∧ episode.journal = [] := by
  cases h using Occurs.byCourse with
  | start _ course =>
    obtain rfl := Outcome.eq_refuse course.settles (Option.some.inj herror)
    exact ⟨rfl, rfl⟩
  | send _ course =>
    obtain rfl := Outcome.eq_refuse course.settles (Option.some.inj herror)
    exact ⟨rfl, rfl⟩
  | change => exact nomatch herror

/-- **An action that is answered with an error** asked at a moment at which the whole
machine is the same afterwards, and nothing has happened; the error is the one that
the active path gives reason for. -/
theorem Occurs.exists_refused (h : episode.Occurs) {entry : Journal.Entry L}
    (hmem : entry ∈ episode.journal) {name event : String} {asked : Configuration}
    {error : MachineError} (heq : entry.happening = .answered name event asked (.error error)) :
    ∃ now path, episode.before.During now ∧ now.toConfiguration = asked
      ∧ entry.configuration = asked ∧ (∃ limit, now.send limit event = some (now.refuse error))
      ∧ now.active = some path ∧ episode.before.tree.refusal? path event = some error := by
  obtain ⟨now, inner, hduring, hcourse, rfl, hresult, hafter⟩ := h.exists_during hmem heq
  obtain ⟨hrunning, path, hactive, -⟩ := hduring.stands
  obtain rfl := Outcome.eq_refuse hcourse.settles hresult
  refine ⟨now, path, hduring, rfl, hafter.symm, course_send_iff.mp hcourse, hactive, ?_⟩
  rw [← hduring.keeps.tree]
  exact hcourse.refusal?_eq hrunning hactive rfl

/-- **A failed call is atomic**, between two calls and in the midst of a dispatch,
since nothing is assumed of the machine: it is the same machine afterwards, and
nothing has happened. So it is for an action that is answered with an error: the
machine at that moment is all that comes of sending the event, and the error depends
on the active path and the event only. So a call during which everything was sent in
vain goes the same way on the silenced machine, whose actions send nothing and go on
with the error instead: with the same answer, to the same machine but for the actions,
and with the same journal but for what the actions were answered. -/
theorem Occurs.atomic (h : episode.Occurs) :
    (∀ error, episode.answer = some (.error error) →
        episode.after = episode.before ∧ episode.journal = [])
      ∧ (∀ entry ∈ episode.journal, ∀ name event asked error,
        entry.happening = .answered name event asked (.error error) →
          ∃ now path, episode.before.During now ∧ now.toConfiguration = asked
            ∧ entry.configuration = asked
            ∧ (∃ limit, now.send limit event = some (now.refuse error))
            ∧ now.active = some path ∧ episode.before.tree.refusal? path event = some error)
      ∧ episode.before.silenced.Silent
      ∧ (episode.journal.Vain → episode.silenced.Occurs) :=
  ⟨fun _ => h.after_eq_before, fun _ hmem _ _ _ _ => h.exists_refused hmem,
    episode.before.silent_silenced, h.silenced⟩

/-- Asking the lamp to glow changes nothing. The lamp that does so itself while it is
turned on might as well count a refusal without asking. -/
theorem Occurs.atomic_lamp :
    (∃ episode : Episode Nat String, episode.call = .send "glow" ∧ episode.before = Lamp.bright
        ∧ episode.after = Lamp.bright ∧ episode.journal = [])
      ∧ ∃ episode : Episode Nat String, episode.call = .send "flip" ∧ episode.before = Lamp.dark
        ∧ episode.after = Lamp.bright ∧ episode.journal.withoutAnswers ≠ episode.journal
        ∧ episode.silenced.Occurs := by
  constructor
  · have hsend : (Lamp.bright.send 0 "glow").map Machine.Outcome.result
        = some (.error (.noMatchingTransition "glow" "on.bright")) := rfl
    obtain ⟨refused, hrefused, hresult⟩ := Option.map_eq_some_iff.mp hsend
    obtain ⟨hafter, hjournal⟩ := (atomic (.send hrefused)).1 _ (congrArg some hresult)
    exact ⟨_, rfl, rfl, hafter, hjournal⟩
  · have hsend : (Lamp.dark.send 1 "flip").map (fun outcome =>
        (outcome.machine, decide outcome.journal.Vain,
          outcome.journal.withoutAnswers.length, outcome.journal.length))
          = some (Lamp.bright, true, 6, 7) := rfl
    obtain ⟨turned, hturned, heq⟩ := Option.map_eq_some_iff.mp hsend
    simp only [Prod.mk.injEq, decide_eq_true_eq] at heq
    obtain ⟨hmachine, hvain, hshort, hlong⟩ := heq
    refine ⟨_, rfl, rfl, hmachine, fun hsame => ?_, (atomic (.send hturned)).2.2.2 hvain⟩
    have hlength : turned.journal.withoutAnswers.length = turned.journal.length :=
      congrArg List.length hsame
    omega

end Episode

end Statechart
