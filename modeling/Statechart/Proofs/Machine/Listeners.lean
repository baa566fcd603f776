import Statechart.Proofs.Machine.Fold

/-!
# What listeners are told

A dispatch that is overtaken tells no listener, so whoever listens to a machine does
not hear of every dispatch. They always know where the machine is all the same: a call
that succeeds tells every listener at least once, and the last that each of them is
told is the leaf at which the call leaves the machine (`Machine.announces_send`).

The reason is the one for which machines rest at leaves: whatever overtakes a dispatch
has come to an end before its action goes on, and has told the listeners by then. The
induction on the course says of an action that it either begins no dispatch, and then
nobody is told, or leaves all listeners informed (`Activity.Reports`).

Over a run, listeners come and go between the calls (`Run.knownTo`). A listener is
known by its handle, and a new handle is none that anyone was told under before.
-/

namespace Statechart

variable {C L : Type}

open Machine (Outcome)

/-! ## Notices -/

namespace Journal

/-- **What was told under a handle**, in order: the leaf and the event, each time. -/
def notices (journal : Journal L) (handle : Handle) : List (Path × String) :=
  journal.filterMap fun entry =>
    match entry.happening with
    | .told other _ leaf event => if other = handle then some (leaf, event) else none
    | _ => none

/-- **Nobody is told anything.** -/
def Quiet (journal : Journal L) : Prop := ∀ handle, journal.notices handle = []

/-- **Everyone is told at least once, and last of a leaf.** -/
def Informs (journal : Journal L) (listeners : List (Handle × L)) (leaf : Path) : Prop :=
  ∀ handle listener, (handle, listener) ∈ listeners →
    ∃ event, (journal.notices handle).getLast? = some (leaf, event)

/-- **What is told is true**: only those who listen are told, and what they are told is
a leaf of the tree, which is active at that moment. -/
def Truthful (journal : Journal L) (tree : Tree) (listeners : List (Handle × L)) : Prop :=
  ∀ entry ∈ journal, ∀ handle listener leaf event,
    entry.happening = .told handle listener leaf event →
      (handle, listener) ∈ listeners ∧ entry.configuration.status = .running
        ∧ entry.configuration.active = some leaf ∧ tree.HasLeaf leaf

variable {journal journal' : Journal L} {listeners : List (Handle × L)} {leaf : Path} {tree : Tree}

@[simp] theorem notices_append (handle : Handle) :
    notices (journal ++ journal') handle = notices journal handle ++ notices journal' handle :=
  List.filterMap_append

/-- A notice is an entry of the journal. -/
theorem exists_told {handle : Handle} {notice : Path × String}
    (h : notice ∈ journal.notices handle) :
    ∃ entry ∈ journal, ∃ listener, entry.happening = .told handle listener notice.1 notice.2 := by
  obtain ⟨entry, hmem, hentry⟩ := List.mem_filterMap.mp h
  refine ⟨entry, hmem, ?_⟩
  split at hentry
  · rename_i other listener leaf event hhappening
    split at hentry
    · rename_i heq
      obtain rfl := Option.some.inj hentry
      exact ⟨listener, heq ▸ hhappening⟩
    · exact nomatch hentry
  · exact nomatch hentry

theorem quiet_nil : Quiet ([] : Journal L) := fun _ => rfl

theorem Quiet.append (h : Quiet journal) (h' : Quiet journal') : Quiet (journal ++ journal') := by
  intro handle
  rw [notices_append, h handle, h' handle, List.append_nil]

/-- Whoever is informed later is informed in the end. -/
theorem Informs.of_later (h : Informs journal' listeners leaf) :
    Informs (journal ++ journal') listeners leaf := by
  intro handle listener hmem
  obtain ⟨event, hlast⟩ := h handle listener hmem
  refine ⟨event, ?_⟩
  rw [notices_append, List.getLast?_append, hlast]
  rfl

/-- Whoever is informed stays informed while nobody is told anything. -/
theorem Informs.of_earlier (h : Informs journal listeners leaf) (h' : Quiet journal') :
    Informs (journal ++ journal') listeners leaf := by
  intro handle listener hmem
  obtain ⟨event, hlast⟩ := h handle listener hmem
  refine ⟨event, ?_⟩
  rw [notices_append, h' handle, List.append_nil]
  exact hlast

theorem truthful_nil : Truthful ([] : Journal L) tree listeners := fun _ hmem => nomatch hmem

theorem truthful_append :
    Truthful (journal ++ journal') tree listeners
      ↔ Truthful journal tree listeners ∧ Truthful journal' tree listeners :=
  List.forall_mem_append

end Journal

open Journal

namespace Machine

variable {machine : Machine C L}

/-- Telling the listeners informs them. -/
theorem informs_tell (number : Nat) (leaf : Path) (event : String) :
    Informs (machine.tell number leaf event) machine.subscribers.listeners leaf := by
  intro handle listener hmem
  have hnotice : (leaf, event) ∈ notices (machine.tell number leaf event) handle :=
    List.mem_filterMap.mpr ⟨_, List.mem_map.mpr ⟨_, hmem, rfl⟩, if_pos rfl⟩
  obtain ⟨notice, hlast⟩ := Option.ne_none_iff_exists'.mp
    (mt List.getLast?_eq_none_iff.mp (List.ne_nil_of_mem hnotice))
  -- whatever is told now is the same
  obtain ⟨entry, hentry, _, hhappening⟩ := exists_told (List.mem_of_getLast? hlast)
  obtain ⟨_, -, rfl⟩ := List.mem_map.mp hentry
  obtain ⟨-, -, hleaf, hevent⟩ := Happening.told.inj hhappening
  refine ⟨event, hlast.trans (congrArg some ?_)⟩
  exact Prod.ext hleaf.symm hevent.symm

/-- Telling the listeners of the leaf that is active is telling the truth. -/
theorem truthful_tell {number : Nat} {leaf : Path} {event : String}
    (h : machine.RestsAt leaf) :
    Truthful (machine.tell number leaf event) machine.tree machine.subscribers.listeners := by
  intro entry hentry handle listener told event' hhappening
  obtain ⟨⟨_, _⟩, hmem, rfl⟩ := List.mem_map.mp hentry
  obtain ⟨rfl, rfl, rfl, -⟩ := Happening.told.inj hhappening
  exact ⟨hmem, h.running, h.active, h.hasLeaf⟩

end Machine

open Machine

/-! ## The notices of a course -/

namespace Machine.Outcome

/-- **Nobody has been told anything**, because no dispatch has begun. -/
def IsQuiet (outcome : Outcome C L) (machine : Machine C L) : Prop :=
  outcome.machine.dispatches = machine.dispatches ∧ outcome.journal.Quiet

/-- **Everyone who listens knows where the machine is.** -/
def Informs (outcome : Outcome C L) (machine : Machine C L) : Prop :=
  ∃ leaf, outcome.machine.active = some leaf
    ∧ outcome.journal.Informs machine.subscribers.listeners leaf

/-- **Whoever listens is told as long as there is something to tell**: nobody is told
anything where no dispatch begins, and everyone knows where the machine is otherwise. -/
def Notifies (outcome : Outcome C L) (machine : Machine C L) : Prop :=
  outcome.IsQuiet machine
    ∨ (machine.dispatches < outcome.machine.dispatches ∧ outcome.Informs machine)

variable {machine : Machine C L} {outcome : Outcome C L}

/-- Whatever has happened before, they know it afterwards. -/
theorem Informs.after {journal : Journal L} (h : outcome.Informs machine) :
    (outcome.after journal).Informs machine := by
  obtain ⟨leaf, hactive, hinforms⟩ := h
  exact ⟨leaf, hactive, hinforms.of_later⟩

end Machine.Outcome

/-- **What listeners are told in the course of an activity.** -/
def Activity.Reports : Activity C → Machine C L → Outcome C L → Prop
  | .walk occasion _, machine, outcome =>
    machine.status = .running → machine.tree.HasLeaf occasion.leaf →
      outcome.journal.Truthful machine.tree machine.subscribers.listeners
        ∧ outcome.Informs machine
  | _, machine, outcome =>
    outcome.journal.Truthful machine.tree machine.subscribers.listeners
      ∧ outcome.Notifies machine

namespace Course

/-- The case of an event that an action sends. -/
theorem reports_ask {number : Nat} {name event : String} {machine : Machine C L}
    {reply outcome : Outcome C L} {program next : Program C}
    (asked : Course (.send event) machine reply)
    (rest : Course (.act number name next) reply.machine outcome)
    (ihasked : (Activity.send event).Reports machine reply)
    (ihrest : (Activity.act number name next).Reports reply.machine outcome) :
    (Activity.act number name program).Reports machine
      (outcome.after (reply.journal ++ [machine.answering number name event reply])) := by
  have hkeeps := asked.keeps
  obtain ⟨htrue, hasked⟩ := ihasked
  obtain ⟨htrue', hrest⟩ := ihrest
  rw [hkeeps.tree, hkeeps.subscribers] at htrue'
  have hanswer : Quiet [machine.answering number name event reply] := fun _ => rfl
  refine ⟨truthful_append.mpr ⟨truthful_append.mpr ⟨htrue, ?_⟩, htrue'⟩, ?_⟩
  · exact List.forall_mem_singleton.mpr nofun
  obtain ⟨hsame', hquiet'⟩ | ⟨hlt', leaf, hactive, hinforms⟩ := hrest
  · obtain ⟨hsame, hquiet⟩ | ⟨hlt, leaf, hactive, hinforms⟩ := hasked
    · exact .inl ⟨hsame'.trans hsame, (hquiet.append hanswer).append hquiet'⟩
    · -- nothing has moved since the event was handled
      refine .inr ⟨hsame' ▸ hlt, leaf, ?_, (hinforms.of_earlier hanswer).of_earlier hquiet'⟩
      exact (congrArg Configuration.active (rest.toConfiguration_eq hsame')).trans hactive
  · rw [hkeeps.subscribers] at hinforms
    exact .inr ⟨Nat.lt_of_le_of_lt hkeeps.dispatches hlt', leaf, hactive, hinforms.of_later⟩

/-- The case of a step with an action that begins no dispatch. -/
theorem reports_perform {occasion : Occasion} {step : Step} {steps : List Step} {name : String}
    {program : Program C} {machine : Machine C L} {acted outcome : Outcome C L}
    (action : Course (.act machine.dispatches name program) (machine.movedTo step.arrival) acted)
    (same : acted.machine.dispatches = machine.dispatches)
    (ihaction : (Activity.act machine.dispatches name program).Reports
      (machine.movedTo step.arrival) acted)
    (ihrest : (Activity.walk occasion steps).Reports acted.machine outcome) :
    (Activity.walk occasion (step :: steps)).Reports machine
      (outcome.after (machine.stepping step :: machine.acting name ⟨step, occasion⟩
        :: acted.journal)) := by
  intro hrunning hleaf
  have hkeeps := action.keeps
  have hsame := action.toConfiguration_eq same
  obtain ⟨htrue, -⟩ := ihaction
  obtain ⟨htrue', leaf, hactive, hinforms⟩ := ihrest
    ((congrArg Configuration.status hsame).trans hrunning) (hkeeps.tree ▸ hleaf)
  rw [hkeeps.tree, hkeeps.subscribers] at htrue'
  rw [hkeeps.subscribers] at hinforms
  refine ⟨?_, leaf, hactive, hinforms.of_later⟩
  exact List.forall_mem_cons.mpr ⟨nofun, List.forall_mem_cons.mpr ⟨nofun,
    truthful_append.mpr ⟨htrue, htrue'⟩⟩⟩

/-- The case of a dispatch. -/
theorem reports_dispatch {occasion : Occasion} {steps : List Step} {machine : Machine C L}
    {outcome : Outcome C L}
    (walk : Course (.walk occasion steps) (machine.begun occasion) outcome)
    (hleaf : machine.tree.HasLeaf occasion.leaf)
    (ih : (Activity.walk occasion steps).Reports (machine.begun occasion) outcome) :
    Truthful (machine.beginning occasion steps :: outcome.journal) machine.tree
        machine.subscribers.listeners
      ∧ machine.dispatches < outcome.machine.dispatches
      ∧ (outcome.after [machine.beginning occasion steps]).Informs machine := by
  obtain ⟨htrue, hinforms⟩ := ih rfl hleaf
  exact ⟨List.forall_mem_cons.mpr ⟨nofun, htrue⟩, walk.keeps.dispatches, hinforms.after⟩

/-- **Every course reports**: whoever listens is told the truth, and in the end knows
where the machine is if a dispatch has begun. -/
theorem reports {activity : Activity C} {machine : Machine C L} {outcome : Outcome C L}
    (h : Course activity machine outcome) : activity.Reports machine outcome := by
  induction h with
  | done => exact ⟨truthful_nil, .inl ⟨rfl, quiet_nil⟩⟩
  | read _ ih => exact ih
  | write _ ih => exact ih
  | ask asked rest ihasked ihrest => exact reports_ask asked rest ihasked ihrest
  | arrive =>
    intro hrunning hleaf
    exact ⟨truthful_tell ⟨hrunning, rfl, hleaf⟩, _, rfl, informs_tell _ _ _⟩
  | pass _ _ ih =>
    intro hrunning hleaf
    obtain ⟨htrue, hinforms⟩ := ih hrunning hleaf
    exact ⟨List.forall_mem_cons.mpr ⟨nofun, htrue⟩, hinforms.after⟩
  | perform _ action same _ ihaction ihrest => exact reports_perform action same ihaction ihrest
  | overtaken _ _ other ihaction =>
    intro _ _
    obtain ⟨htrue, ⟨hsame, -⟩ | ⟨-, hinforms⟩⟩ := ihaction
    · exact absurd hsame other
    · refine ⟨?_, hinforms.after⟩
      exact List.forall_mem_cons.mpr ⟨nofun, List.forall_mem_cons.mpr ⟨nofun, htrue⟩⟩
  | unready _ => exact ⟨truthful_nil, .inl ⟨rfl, quiet_nil⟩⟩
  | unhandled _ _ _ => exact ⟨truthful_nil, .inl ⟨rfl, quiet_nil⟩⟩
  | dispatch _ _ ok walk ih =>
    obtain ⟨htrue, hinforms⟩ := reports_dispatch walk (Tree.leads_of_transition ok).hasLeaf ih
    exact ⟨htrue, .inr hinforms⟩
  | alreadyRunning _ => exact ⟨truthful_nil, .inl ⟨rfl, quiet_nil⟩⟩
  | leafless _ _ => exact ⟨truthful_nil, .inl ⟨rfl, quiet_nil⟩⟩
  | start _ ok walk ih =>
    obtain ⟨htrue, hinforms⟩ := reports_dispatch walk (Tree.leads_of_start ok).hasLeaf ih
    exact ⟨htrue, .inr hinforms⟩

end Course

/-! ## Calls -/

namespace Machine

namespace Outcome

variable {machine : Machine C L} {outcome : Outcome C L}

/-- **A call keeps its listeners informed.** -/
structure Announces (outcome : Outcome C L) (machine : Machine C L) : Prop where
  /-- They are the same listeners throughout. -/
  subscribers : outcome.machine.subscribers = machine.subscribers
  /-- What they are told is true. -/
  truthful : outcome.journal.Truthful machine.tree machine.subscribers.listeners
  /-- If the call succeeds, everyone is told at least once, and last of its answer. -/
  informs : ∀ leaf, outcome.result = .ok leaf →
    outcome.journal.Informs machine.subscribers.listeners leaf
  /-- If it fails, nobody is told anything. -/
  quiet : ∀ error, outcome.result = .error error → outcome.journal.Quiet

/-- A call does nothing, or informs everyone. -/
theorem refused_or_informs (hsettles : outcome.Refused machine ∨ outcome.Arrives machine)
    (h : outcome.Notifies machine) : outcome.Refused machine ∨ outcome.Informs machine := by
  obtain hrefused | ⟨hlt, -⟩ := hsettles
  · exact .inl hrefused
  · obtain ⟨hsame, -⟩ | ⟨-, hinforms⟩ := h
    · exact absurd hsame (Nat.ne_of_gt hlt)
    · exact .inr hinforms

/-- A call that settles and reports keeps its listeners informed. -/
theorem Announces.of_reports (hkeeps : machine.Keeps outcome.machine)
    (hsettles : outcome.Refused machine ∨ outcome.Arrives machine)
    (htruthful : outcome.journal.Truthful machine.tree machine.subscribers.listeners)
    (hnotifies : outcome.Notifies machine) : outcome.Announces machine := by
  refine ⟨hkeeps.subscribers, htruthful, fun leaf hok => ?_, fun error herror => ?_⟩
  · have hactive := (restsAt_of_ok hsettles hok).active
    obtain ⟨error, rfl⟩ | ⟨told, htold, hinforms⟩ := refused_or_informs hsettles hnotifies
    · exact nomatch hok
    · exact Option.some.inj (htold.symm.trans hactive) ▸ hinforms
  · obtain rfl := Outcome.eq_refuse hsettles herror
    exact quiet_nil

end Outcome

variable {machine : Machine C L} {outcome : Outcome C L}

/-- **A start keeps listeners informed.** -/
theorem announces_start {limit : Nat} (returns : machine.start limit = some outcome) :
    outcome.Announces machine := by
  have course := course_of_start returns
  exact .of_reports course.keeps course.settles course.reports.1 course.reports.2

/-- **A send keeps listeners informed**, also in the midst of a dispatch. -/
theorem announces_send {limit : Nat} {event : String}
    (returns : machine.send limit event = some outcome) : outcome.Announces machine := by
  have course := course_send_iff.mpr ⟨limit, returns⟩
  exact .of_reports course.keeps course.settles course.reports.1 course.reports.2

end Machine

namespace Episode

/-- **Every call keeps listeners informed** that has an answer. -/
theorem Occurs.announces {episode : Episode C L} (h : episode.Occurs)
    {result : Except MachineError Path} (hanswer : episode.answer = some result) :
    Outcome.Announces ⟨result, episode.after, episode.journal⟩ episode.before := by
  cases h with
  | start returns => exact Option.some.inj hanswer ▸ announces_start returns
  | send returns => exact Option.some.inj hanswer ▸ announces_send returns
  | change => exact nomatch hanswer

end Episode

/-! ## Runs -/

/-- **Everyone who listens to a machine knows where it is**, as far as they have been
told anything. Handles that someone listens or was told under have been issued, so that
the next one is new. -/
structure Machine.KnownTo (machine : Machine C L) (journal : Journal L) : Prop where
  /-- The handles of those who listen have been issued. -/
  listening : ∀ handle listener, (handle, listener) ∈ machine.subscribers.listeners →
    handle.number < machine.subscribers.issued
  /-- So have those that anything was told under. -/
  told : ∀ handle, journal.notices handle ≠ [] → handle.number < machine.subscribers.issued
  /-- The last that was told to one who listens is the active path. -/
  latest : ∀ handle listener, (handle, listener) ∈ machine.subscribers.listeners →
    ∀ leaf event, (journal.notices handle).getLast? = some (leaf, event) →
      machine.active = some leaf

namespace Machine.KnownTo

variable {machine : Machine C L} {journal : Journal L}

/-- A change leaves everyone informed who still listens. -/
theorem change (h : machine.KnownTo journal) (change : Change C L) :
    (machine.change change).KnownTo journal := by
  cases change with
  | stop => exact ⟨h.listening, h.told, h.latest⟩
  | write context => exact ⟨h.listening, h.told, h.latest⟩
  | subscribe listener =>
    -- nothing has been told yet under the new handle
    have hmem {handle : Handle} {other : L}
        (hlistens :
          (handle, other) ∈ (machine.change (.subscribe listener)).subscribers.listeners) :
        (handle, other) ∈ machine.subscribers.listeners
          ∨ handle.number = machine.subscribers.issued := by
      obtain hold | hnew := List.mem_append.mp hlistens
      · exact .inl hold
      · obtain ⟨rfl, -⟩ := Prod.mk.inj (List.mem_singleton.mp hnew)
        exact .inr rfl
    refine ⟨fun handle other hlistens => ?_, fun handle htold => ?_,
      fun handle other hlistens leaf event hlast => ?_⟩
    · obtain hold | hnew := hmem hlistens
      · exact Nat.lt_succ_of_lt (h.listening handle other hold)
      · exact hnew ▸ Nat.lt_succ_self _
    · exact Nat.lt_succ_of_lt (h.told handle htold)
    · obtain hold | hnew := hmem hlistens
      · exact h.latest handle other hold leaf event hlast
      · have hlt := h.told handle (List.ne_nil_of_mem (List.mem_of_getLast? hlast))
        exact absurd hnew (Nat.ne_of_lt hlt)
  | unsubscribe handle =>
    have hmem {other : Handle} {listener : L} (hlistens :
        (other, listener) ∈ (machine.change (.unsubscribe handle)).subscribers.listeners) :
        (other, listener) ∈ machine.subscribers.listeners := (List.mem_filter.mp hlistens).1
    exact ⟨fun _ _ hlistens => h.listening _ _ (hmem hlistens), h.told,
      fun _ _ hlistens => h.latest _ _ (hmem hlistens)⟩

/-- A call that does nothing leaves everyone informed, and so does one that informs
them. -/
theorem call {outcome : Outcome C L} (h : machine.KnownTo journal)
    (hannounces : outcome.Announces machine)
    (hcall : outcome.Refused machine ∨ outcome.Informs machine) :
    outcome.machine.KnownTo (journal ++ outcome.journal) := by
  obtain ⟨error, rfl⟩ | ⟨found, hactive, hinforms⟩ := hcall
  · exact (List.append_nil journal).symm ▸ h
  · refine ⟨fun handle listener hlistens => ?_, fun handle htold => ?_,
      fun handle listener hlistens leaf event hlast => ?_⟩
    · rw [hannounces.subscribers] at hlistens ⊢
      exact h.listening handle listener hlistens
    · rw [notices_append] at htold
      rw [hannounces.subscribers]
      obtain hbefore | hnow := not_and_or.mp (mt List.append_eq_nil_iff.mpr htold)
      · exact h.told handle hbefore
      · -- only those who listen are told
        obtain ⟨notice, hnotice⟩ := List.exists_mem_of_ne_nil _ hnow
        obtain ⟨entry, hentry, listener, hhappening⟩ := exists_told hnotice
        exact h.listening _ _ (hannounces.truthful entry hentry _ _ _ _ hhappening).1
    · rw [hannounces.subscribers] at hlistens
      obtain ⟨event', hnow⟩ := hinforms handle listener hlistens
      rw [notices_append, List.getLast?_append, hnow] at hlast
      obtain ⟨rfl, -⟩ := Prod.mk.inj (Option.some.inj hlast)
      exact hactive

end Machine.KnownTo

namespace Run

variable {machine last : Machine C L} {episodes : List (Episode C L)}

/-- **A run leaves everyone informed who listens.** -/
theorem knownTo (built : machine.Built) (run : Run machine episodes last) :
    last.KnownTo (journalOf episodes) := by
  induction run with
  | nil =>
    obtain ⟨_, _, _, rfl⟩ := built.eq_new
    exact ⟨nofun, fun _ htold => absurd rfl htold, nofun⟩
  | concat run occurs ih =>
    rw [journalOf_concat]
    cases occurs using Episode.Occurs.byCourse with
    | start returns course =>
      exact ih.call (announces_start returns)
        (Outcome.refused_or_informs course.settles course.reports.2)
    | send returns course =>
      exact ih.call (announces_send returns)
        (Outcome.refused_or_informs course.settles course.reports.2)
    | change change => exact (List.append_nil (journalOf _)).symm ▸ ih.change change

/-- **Listeners never drift from the machine.** Every start and every send of a run,
from outside or out of an action at any moment, tells only those who listen, and only
of a leaf that is active right then. If it succeeds everyone who listens is told at
least once, and last of the leaf that is its answer; if it fails nobody is told
anything. So after any run the last that was told to one who still listens is where
the machine is, whoever else has come and gone meanwhile: nobody was told anything
under a handle before it was issued. -/
theorem listeners_follow (built : machine.Built) (run : Run machine episodes last) :
    (∀ episode ∈ episodes,
        (∀ result, episode.answer = some result →
          Outcome.Announces ⟨result, episode.after, episode.journal⟩ episode.before)
        ∧ ∀ now, episode.before.During now → ∀ limit event outcome,
          now.send limit event = some outcome → outcome.Announces now)
      ∧ (∀ handle listener, (handle, listener) ∈ last.subscribers.listeners →
        ∀ leaf event, ((journalOf episodes).notices handle).getLast? = some (leaf, event) →
          last.active = some leaf)
      ∧ ∀ handle, (journalOf episodes).notices handle ≠ [] →
        handle.number < last.subscribers.issued := by
  refine ⟨run.forall_mem built.resting fun episode occurs _ _ => ⟨?_, ?_⟩, ?_, ?_⟩
  · exact fun _ => occurs.announces
  · exact fun _ _ _ _ _ => announces_send
  · exact (run.knownTo built).latest
  · exact (run.knownTo built).told

/-- Whoever watches the lamp being turned on is told that it is off, and then only that
it is dim: that is where it is. -/
theorem listeners_follow_lamp : ∃ episodes last, Run Lamp.machine episodes last
    ∧ (journalOf episodes).notices ⟨0⟩ = [(⟨["off"]⟩, "init"), (⟨["on", "dim"]⟩, "fade")]
    ∧ last.active = some ⟨["on", "dim"]⟩ := by
  have hstart : ((Lamp.machine.change (.subscribe "watcher")).start 1).map (fun outcome =>
        (outcome.machine, outcome.journal.notices ⟨0⟩))
      = some (Lamp.off.change (.subscribe "watcher"), [(⟨["off"]⟩, "init")]) := rfl
  have hsend : ((Lamp.off.change (.subscribe "watcher")).send 1 "flip").map (fun outcome =>
        (outcome.machine.subscribers.listeners, outcome.journal.notices ⟨0⟩))
      = some ([(⟨0⟩, "watcher")], [(⟨["on", "dim"]⟩, "fade")]) := rfl
  obtain ⟨started, hstarted, hoff⟩ := Option.map_eq_some_iff.mp hstart
  obtain ⟨turned, hturned, hdim⟩ := Option.map_eq_some_iff.mp hsend
  obtain ⟨hmachine, htold⟩ := Prod.mk.inj hoff
  obtain ⟨hlisteners, htold'⟩ := Prod.mk.inj hdim
  rw [← hmachine] at hturned
  have run := Run.concat (.concat (.concat .nil (.change (.subscribe "watcher") Lamp.machine))
    (.start hstarted)) (.send hturned)
  refine ⟨_, _, run, ?notices, ?_⟩
  case notices =>
    rw [journalOf_concat, journalOf_concat, notices_append, notices_append]
    exact congrArg₂ _ htold htold'
  · refine (listeners_follow Lamp.built run).2.1 ⟨0⟩ "watcher" ?_ _ "fade" ?_
    · exact hlisteners ▸ List.mem_singleton_self _
    · rw [journalOf_concat, notices_append, List.getLast?_append]
      show (Journal.notices turned.journal ⟨0⟩).getLast?.or _ = _
      rw [htold']
      rfl

end Run

end Statechart
