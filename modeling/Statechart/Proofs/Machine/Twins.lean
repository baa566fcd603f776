import Statechart.Proofs.Machine.Rest

/-!
# Machines that do the same

Two machines need not be equal to do the same. Dispatches are counted from the making of
a machine, and only whether the count has changed ever matters; listeners are called in
order, whatever their handles; and a dispatch overwrites the active path with its first
step. *Twins* agree in everything else (`Machine.Twins`), and whatever an activity does to
one of them it does to the other (`Course.mirrored`): with the same result, the same
actions told the same, the same answers and the same calls of listeners
(`Journal.seen`), and they are twins again.

A start makes twins of machines that are merely of a *kind* (`Machine.Kin`), whatever is
active in each of them and whatever they remember.
-/

namespace Statechart

variable {C L : Type}

open Machine (Outcome)

/-! ## What can be seen of a journal -/

/-- **What is seen of a dispatch** by actions and listeners. -/
inductive Sight (L : Type) where
  /-- An action is run. -/
  | ran (name : String) (scope : Scope)
  /-- An action is answered. -/
  | answered (name event : String) (reply : Except MachineError Path)
  /-- A listener is called. -/
  | told (listener : L) (leaf : Path) (event : String)

/-- What is seen of a happening, if anything is. -/
def Happening.sight? : Happening L → Option (Sight L)
  | .ran name scope => some (.ran name scope)
  | .answered name event _ reply => some (.answered name event reply)
  | .told _ listener leaf event => some (.told listener leaf event)
  | _ => none

/-- Who listens to a machine, in the order in which they are told. -/
def Machine.audience (machine : Machine C L) : List L := machine.subscribers.listeners.map Prod.snd

namespace Journal

/-- **What is seen of all that happened**, in order. -/
def seen (journal : Journal L) : List (Sight L) := journal.filterMap (·.happening.sight?)

variable {journal journal' : Journal L}

@[simp] theorem seen_append : seen (journal ++ journal') = seen journal ++ seen journal' :=
  List.filterMap_append

@[simp] theorem seen_tell (machine : Machine C L) (number : Nat) (leaf : Path) (event : String) :
    seen (machine.tell number leaf event) = machine.audience.map (.told · leaf event) := by
  unfold seen Machine.tell Machine.audience
  rw [List.filterMap_map, List.map_map, ← List.filterMap_eq_map]
  rfl

end Journal

/-! ## Twins -/

/-- **Trees that cannot be told apart** by a machine at work. -/
structure Tree.Alike (tree other : Tree) : Prop where
  /-- They start in the same leaf. -/
  leafOf_root : other.leafOf .root = tree.leafOf .root
  /-- Events have the same transitions. -/
  transition : ∀ path event, other.transition path event = tree.transition path event
  /-- They are handled by the same nodes. -/
  handler? : ∀ path event, other.handler? path event = tree.handler? path event
  /-- There are the same of them. -/
  nextEvents : ∀ path, other.nextEvents path = tree.nextEvents path

namespace Tree.Alike

theorem refl (tree : Tree) : tree.Alike tree :=
  ⟨rfl, fun _ _ => rfl, fun _ _ => rfl, fun _ => rfl⟩

theorem symm {tree other : Tree} (h : tree.Alike other) : other.Alike tree :=
  ⟨h.leafOf_root.symm, fun path event => (h.transition path event).symm,
    fun path event => (h.handler? path event).symm, fun path => (h.nextEvents path).symm⟩

end Tree.Alike

namespace Machine

/-- **Machines of a kind**, wherever they are: one has counted so many dispatches more
than the other. -/
structure Kin (lag : Int) (machine other : Machine C L) : Prop where
  tree : machine.tree.Alike other.tree
  bindings : other.bindings = machine.bindings
  context : other.context = machine.context
  audience : other.audience = machine.audience
  dispatches : (other.dispatches : Int) = machine.dispatches + lag

/-- **Twins**: machines of a kind that are at the same place. -/
structure Twins (lag : Int) (machine other : Machine C L) : Prop
    extends Kin lag machine other where
  configuration : other.toConfiguration = machine.toConfiguration

variable {lag : Int} {machine other : Machine C L}

namespace Kin

theorem symm (h : machine.Kin lag other) : other.Kin (-lag) machine := by
  have hdispatches := h.dispatches
  exact ⟨h.tree.symm, h.bindings.symm, h.context.symm, h.audience.symm, by omega⟩

/-- **Machines of a kind are twins once both have begun a dispatch** and taken its first
step. -/
theorem begun (h : machine.Kin lag other) (occasion : Occasion) (path : Path) :
    ((machine.begun occasion).movedTo path).Twins lag ((other.begun occasion).movedTo path) := by
  have hdispatches := h.dispatches
  refine ⟨⟨h.tree, h.bindings, h.context, h.audience, ?_⟩, rfl⟩
  show ((other.dispatches + 1 : Nat) : Int) = (machine.dispatches + 1 : Nat) + lag
  omega

end Kin

namespace Twins

theorem movedTo (h : machine.Twins lag other) (path : Path) :
    (machine.movedTo path).Twins lag (other.movedTo path) := by
  refine ⟨⟨h.tree, h.bindings, h.context, h.audience, h.dispatches⟩, ?_⟩
  show Configuration.mk other.status _ other.history = ⟨machine.status, _, machine.history⟩
  rw [h.configuration]

theorem written (h : machine.Twins lag other) (context : C) :
    Twins lag { machine with context } { other with context } :=
  ⟨⟨h.tree, h.bindings, rfl, h.audience, h.dispatches⟩, h.configuration⟩

theorem stop (h : machine.Twins lag other) : machine.stop.Twins lag other.stop := by
  refine ⟨⟨h.tree, h.bindings, h.context, h.audience, h.dispatches⟩, ?_⟩
  show Configuration.mk _ other.active other.history = ⟨_, machine.active, machine.history⟩
  rw [h.configuration]

theorem status (h : machine.Twins lag other) : other.status = machine.status :=
  congrArg Configuration.status h.configuration

theorem active (h : machine.Twins lag other) : other.active = machine.active :=
  congrArg Configuration.active h.configuration

/-- Twins are left at the same path. -/
theorem leftAt (h : machine.Twins lag other) : other.leftAt = machine.leftAt := by
  unfold Machine.leftAt
  rw [h.active]

end Twins

/-- **Outcomes that mirror each other.** -/
structure Outcome.Mirrors (lag : Int) (outcome mirrored : Outcome C L) : Prop where
  /-- The result is the same. -/
  result : mirrored.result = outcome.result
  /-- The machines are twins. -/
  twins : outcome.machine.Twins lag mirrored.machine
  /-- The same is seen. -/
  seen : mirrored.journal.seen = outcome.journal.seen

namespace Outcome.Mirrors

variable {outcome mirrored : Outcome C L}

/-- After what looks the same, outcomes mirror each other still. -/
theorem after {journal journal' : Journal L} (h : outcome.Mirrors lag mirrored)
    (hseen : journal'.seen = journal.seen) :
    (outcome.after journal).Mirrors lag (mirrored.after journal') := by
  refine ⟨h.result, h.twins, ?_⟩
  show Journal.seen (journal' ++ mirrored.journal) = Journal.seen (journal ++ outcome.journal)
  rw [Journal.seen_append, Journal.seen_append, hseen, h.seen]

/-- Twins refuse for the same reason. -/
theorem refuse (h : machine.Twins lag other) (error : MachineError) :
    (machine.refuse error).Mirrors lag (other.refuse error) := ⟨rfl, h, rfl⟩

end Outcome.Mirrors

end Machine

/-! ## The same course -/

/-- **What an activity does to machines that are twins**, or of a kind when they are
started. The steps of a dispatch are taken by machines that are twins once they have taken
the first. -/
def Activity.Mirrored (lag : Int) : Activity C → Machine C L → Outcome C L → Prop
  | .act _ name program, machine, outcome => ∀ other, machine.Twins lag other → ∀ number,
    ∃ mirrored, Course (.act number name program) other mirrored ∧ outcome.Mirrors lag mirrored
  | .walk occasion steps, machine, outcome =>
    ∀ other, (∀ path, (machine.movedTo path).Twins lag (other.movedTo path)) →
      ∃ mirrored, Course (.walk occasion steps) other mirrored ∧ outcome.Mirrors lag mirrored
  | .send event, machine, outcome => ∀ other, machine.Twins lag other →
    ∃ mirrored, Course (.send event) other mirrored ∧ outcome.Mirrors lag mirrored
  | .start, machine, outcome => ∀ other,
    machine.Twins lag other
        ∨ (machine.Kin lag other ∧ machine.status = .stopped ∧ other.status = .stopped) →
      ∃ mirrored, Course .start other mirrored ∧ outcome.Mirrors lag mirrored

namespace Course

variable {lag : Int} {machine : Machine C L} {outcome acted : Outcome C L} {occasion : Occasion}
  {step : Step} {steps : List Step} {bound : Bound (Action C)}

/-- The case of an event that an action sends. -/
theorem mirrored_ask {number : Nat} {name event : String}
    {next : Except MachineError Path → Program C} {reply : Outcome C L}
    (ihasked : (Activity.send event).Mirrored lag machine reply)
    (ihrest : (Activity.act number name (next reply.result)).Mirrored lag reply.machine outcome) :
    (Activity.act number name (.send event next)).Mirrored lag machine
      (outcome.after (reply.journal ++ [machine.answering number name event reply])) := by
  intro other htwins number'
  obtain ⟨reply', hasked, hreply⟩ := ihasked other htwins
  obtain ⟨outcome', hrest, hmirrors⟩ := ihrest reply'.machine hreply.twins number'
  rw [← hreply.result] at hrest
  refine ⟨_, .ask hasked hrest, hmirrors.after ?_⟩
  rw [Journal.seen_append, Journal.seen_append, hreply.seen]
  show _ ++ [Sight.answered name event reply'.result] = _ ++ [.answered name event reply.result]
  rw [hreply.result]

/-- The case of a step with an action. -/
theorem mirrored_action (ihaction : (Activity.act machine.dispatches bound.name
      (bound.action ⟨step, occasion⟩)).Mirrored lag (machine.movedTo step.arrival) acted)
    {other : Machine C L}
    (htwins : ∀ path, (machine.movedTo path).Twins lag (other.movedTo path)) :
    ∃ acted', Course (.act other.dispatches bound.name (bound.action ⟨step, occasion⟩))
        (other.movedTo step.arrival) acted'
      ∧ acted.Mirrors lag acted'
      ∧ (acted'.machine.dispatches = other.dispatches
        ↔ acted.machine.dispatches = machine.dispatches) := by
  obtain ⟨acted', haction, hmirrors⟩ := ihaction _ (htwins step.arrival) other.dispatches
  refine ⟨acted', haction, hmirrors, ?_⟩
  -- the lag is the same before and after
  have hbefore : (other.dispatches : Int) = machine.dispatches + lag :=
    (htwins step.arrival).dispatches
  have hafter := hmirrors.twins.dispatches
  omega

/-- The case of a dispatch. -/
theorem mirrored_dispatch
    (ih : (Activity.walk occasion steps).Mirrored lag (machine.begun occasion) outcome)
    {other : Machine C L} (hkin : machine.Kin lag other) :
    ∃ mirrored, Course (.walk occasion steps) (other.begun occasion) mirrored
      ∧ (outcome.after [machine.beginning occasion steps]).Mirrors lag
        (mirrored.after [other.beginning occasion steps]) := by
  obtain ⟨mirrored, hwalk, hmirrors⟩ := ih _ (hkin.begun occasion)
  exact ⟨mirrored, hwalk, hmirrors.after rfl⟩

/-- **Whatever is done to one of two twins is done to the other.** -/
theorem mirrored {activity : Activity C} (h : Course activity machine outcome) :
    activity.Mirrored lag machine outcome := by
  induction h with
  | done =>
    intro other htwins number
    exact ⟨_, .done, htwins.leftAt, htwins, rfl⟩
  | @read _ _ _ machine _ _ ih =>
    intro other htwins number
    obtain ⟨mirrored, hrest, hmirrors⟩ := ih other htwins number
    rw [← htwins.context] at hrest
    exact ⟨mirrored, .read hrest, hmirrors⟩
  | write _ ih =>
    intro other htwins number
    obtain ⟨mirrored, hrest, hmirrors⟩ := ih _ (htwins.written _) number
    exact ⟨mirrored, .write hrest, hmirrors⟩
  | ask _ _ ihasked ihrest => exact mirrored_ask ihasked ihrest
  | @arrive occasion machine =>
    intro other htwins
    refine ⟨_, .arrive, rfl, htwins _, ?_⟩
    rw [Journal.seen_tell, Journal.seen_tell, (htwins occasion.leaf).audience]
  | pass unbound _ ih =>
    intro other htwins
    obtain ⟨mirrored, hrest, hmirrors⟩ := ih (other.movedTo _) fun path => htwins path
    exact ⟨_, .pass ((htwins .root).bindings ▸ unbound) hrest, hmirrors.after rfl⟩
  | perform isBound _ same _ ihaction ihrest =>
    intro other htwins
    obtain ⟨acted', haction, hacted, hsame⟩ := mirrored_action ihaction htwins
    obtain ⟨mirrored, hrest, hmirrors⟩ := ihrest _ hacted.twins.movedTo
    refine ⟨_, .perform ((htwins .root).bindings ▸ isBound) haction (hsame.mpr same) hrest, ?_⟩
    exact hmirrors.after (congrArg (_ :: ·) hacted.seen)
  | overtaken isBound _ otherwise ihaction =>
    intro other htwins
    obtain ⟨acted', haction, hacted, hsame⟩ := mirrored_action ihaction htwins
    refine ⟨_, .overtaken ((htwins .root).bindings ▸ isBound) haction (mt hsame.mp otherwise), ?_⟩
    exact hacted.after rfl
  | unready unready =>
    intro other htwins
    rw [← htwins.status, ← htwins.active] at unready
    exact ⟨_, .unready unready, .refuse htwins _⟩
  | unhandled running active refused =>
    intro other htwins
    rw [← htwins.tree.transition] at refused
    exact ⟨_, .unhandled (htwins.status.trans running) (htwins.active.trans active) refused,
      .refuse htwins _⟩
  | dispatch running active ok _ ih =>
    intro other htwins
    obtain ⟨mirrored, hwalk, hmirrors⟩ := mirrored_dispatch ih htwins.toKin
    rw [← htwins.tree.transition] at ok
    exact ⟨_, .dispatch (htwins.status.trans running) (htwins.active.trans active) ok hwalk,
      hmirrors⟩
  | alreadyRunning running =>
    intro other hfit
    obtain htwins | ⟨-, stopped, -⟩ := hfit
    · exact ⟨_, .alreadyRunning (htwins.status.trans running), .refuse htwins _⟩
    · exact nomatch running.symm.trans stopped
  | @leafless _ machine _ refused =>
    obtain ⟨leaf, hleaf, -⟩ := Tree.leafOf_eq_ok (Tree.hasNode_root machine.tree)
    exact nomatch hleaf.symm.trans refused
  | @start leaf machine _ stopped ok _ ih =>
    intro other hfit
    have hkin : machine.Kin lag other := hfit.elim (·.toKin) (·.1)
    have hstopped : other.status = .stopped :=
      hfit.elim (fun htwins => htwins.status.trans stopped) (·.2.2)
    obtain ⟨mirrored, hwalk, hmirrors⟩ := mirrored_dispatch ih hkin
    rw [← hkin.tree.leafOf_root] at ok
    exact ⟨_, .start hstopped ok hwalk, hmirrors⟩

end Course

end Statechart
