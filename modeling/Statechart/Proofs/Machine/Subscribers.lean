import Mathlib.Data.List.Nodup
import Statechart.Proofs.Machine.Blocks
import Statechart.Proofs.Machine.Moment
import Statechart.Proofs.Machine.Vain
import Statechart.Proofs.Split

/-!
# Subscriptions over a run

A listener subscribes to a machine and gets a handle, and later the subscription is
ended by that handle, or by no one. In between the machine may be started, sent events
and stopped, and other listeners may come and go. All of this is in the list of calls,
so who listens after a run can be read off it without a look at the machine: it is the
subscriptions that were made and that no later call was to end (`standing`).

A machine keeps to this (`Run.registers`) because no call but a change touches its
listeners, and because handles are numbered by a count of all subscriptions ever made.
The handles of a run are then the numbers below that count, each of them once, so no
handle is that of two subscriptions.

Whom a call tells is a matter of its dispatches: one that takes all its steps tells the
listeners, all of them in turn, and one that is overtaken tells nobody
(`Episode.Tells`).
-/

namespace Statechart

variable {C L : Type}

/-! ## Subscriptions in a list of calls -/

namespace Episode

/-- The subscription that a call makes, if it makes one: its handle is what the call
answers. -/
def subscription? (episode : Episode C L) : Option (Handle × L) :=
  match episode.call with
  | .change (.subscribe listener) => some ((episode.before.subscribe listener).1, listener)
  | _ => none

/-- The handle of the subscription that a call is to end, if it is to end one. -/
def ending? (episode : Episode C L) : Option Handle :=
  match episode.call with
  | .change (.unsubscribe handle) => some handle
  | _ => none

theorem ending?_eq_some {episode : Episode C L} {handle : Handle}
    (h : episode.call = .change (.unsubscribe handle)) : episode.ending? = some handle := by
  unfold ending?
  rw [h]

end Episode

/-- **All subscriptions made**, in order. -/
def subscriptions (episodes : List (Episode C L)) : List (Handle × L) :=
  episodes.filterMap Episode.subscription?

/-- No call is to end the subscription of a handle. -/
def Outlasts (handle : Handle) (episodes : List (Episode C L)) : Prop :=
  ∀ episode ∈ episodes, episode.ending? ≠ some handle

instance {handle : Handle} {episodes : List (Episode C L)} :
    Decidable (Outlasts handle episodes) :=
  List.decidableBAll _ _

/-- **The subscriptions that stand**, in order: those that were made, and that no call
was to end afterwards. -/
def standing : List (Episode C L) → List (Handle × L)
  | [] => []
  | episode :: later =>
    (episode.subscription?.toList.filter fun subscription => Outlasts subscription.1 later)
      ++ standing later

section Standing

variable {past later : List (Episode C L)} {episode : Episode C L} {handle : Handle}

theorem outlasts_append :
    Outlasts handle (past ++ later) ↔ Outlasts handle past ∧ Outlasts handle later :=
  List.forall_mem_append

theorem outlasts_singleton : Outlasts handle [episode] ↔ episode.ending? ≠ some handle :=
  List.forall_mem_singleton

@[simp] theorem subscriptions_append :
    subscriptions (past ++ later) = subscriptions past ++ subscriptions later :=
  List.filterMap_append

@[simp] theorem subscriptions_singleton :
    subscriptions [episode] = episode.subscription?.toList := by
  unfold subscriptions
  rw [List.filterMap_cons]
  cases episode.subscription? <;> rfl

@[simp] theorem standing_singleton : standing [episode] = episode.subscription?.toList := by
  unfold standing standing
  rw [List.append_nil, List.filter_eq_self.mpr]
  exact fun _ _ => decide_eq_true (List.forall_mem_nil _)

/-- **What stands after more calls**: what stood before and outlasts them, and then what
they have added. -/
theorem standing_append :
    standing (past ++ later)
      = ((standing past).filter fun subscription => Outlasts subscription.1 later)
        ++ standing later := by
  induction past with
  | nil => rfl
  | cons episode past ih =>
    rw [List.cons_append, standing, standing, ih, List.filter_append, List.filter_filter,
      List.append_assoc]
    simp only [outlasts_append, Bool.decide_and, Bool.and_comm]

/-- What stands was subscribed, once for each subscription, in this order. -/
theorem standing_sublist (episodes : List (Episode C L)) :
    (standing episodes).Sublist (subscriptions episodes) := by
  induction episodes with
  | nil => exact .slnil
  | cons episode later ih =>
    rw [← List.singleton_append, subscriptions_append, subscriptions_singleton]
    exact List.filter_sublist.append ih

end Standing

/-! ## What a machine keeps of them -/

namespace Episode

variable {episode : Episode C L}

/-- **What a call does to the listeners**: it adds one, it is to end a subscription, or
it leaves them alone. -/
theorem Occurs.subscribers_cases (h : episode.Occurs) :
    (∃ listener, episode.subscription? = some ((episode.before.subscribe listener).1, listener)
        ∧ episode.ending? = none
        ∧ episode.after.subscribers = (episode.before.subscribers.subscribe listener).2)
      ∨ (∃ handle, episode.subscription? = none ∧ episode.ending? = some handle
        ∧ episode.after.subscribers = (episode.before.subscribers.unsubscribe handle).2)
      ∨ (episode.subscription? = none ∧ episode.ending? = none
        ∧ episode.after.subscribers = episode.before.subscribers) := by
  cases h using Occurs.byCourse with
  | start _ course => exact .inr (.inr ⟨rfl, rfl, course.keeps.subscribers⟩)
  | send _ course => exact .inr (.inr ⟨rfl, rfl, course.keeps.subscribers⟩)
  | change change =>
    cases change with
    | subscribe listener => exact .inl ⟨listener, rfl, rfl, rfl⟩
    | unsubscribe handle => exact .inr (.inl ⟨handle, rfl, rfl, rfl⟩)
    | stop => exact .inr (.inr ⟨rfl, rfl, rfl⟩)
    | write context => exact .inr (.inr ⟨rfl, rfl, rfl⟩)

/-- **Who listens after a call**: whoever listened before, except for the one whose
subscription it was to end, and then the one who has subscribed. -/
theorem Occurs.listeners_eq (h : episode.Occurs) :
    episode.after.subscribers.listeners
      = (episode.before.subscribers.listeners.filter fun subscription =>
          Outlasts subscription.1 [episode]) ++ standing [episode] := by
  simp only [outlasts_singleton, standing_singleton]
  obtain ⟨listener, hnew, hending, hafter⟩ | ⟨handle, hnew, hending, hafter⟩
    | ⟨hnew, hending, hafter⟩ := h.subscribers_cases
  · rw [hafter, hending, hnew, List.filter_eq_self.mpr fun _ _ => decide_eq_true nofun]
    rfl
  · rw [hafter, hending, hnew, Option.toList_none, List.append_nil]
    refine List.filter_congr fun subscription _ => Bool.eq_iff_iff.mpr ?_
    simp only [bne_iff_ne, decide_eq_true_iff, ne_eq, Option.some.injEq]
    exact not_congr eq_comm
  · rw [hafter, hending, hnew, List.filter_eq_self.mpr fun _ _ => decide_eq_true nofun,
      Option.toList_none, List.append_nil]

/-- **A new handle has the next number.** -/
theorem Occurs.numbers_eq (h : episode.Occurs) :
    List.range episode.after.subscribers.issued
      = List.range episode.before.subscribers.issued
        ++ (subscriptions [episode]).map (·.1.number) := by
  rw [subscriptions_singleton]
  obtain ⟨listener, hnew, -, hafter⟩ | ⟨handle, hnew, -, hafter⟩ | ⟨hnew, -, hafter⟩ :=
    h.subscribers_cases
  · rw [hafter, hnew]
    exact List.range_succ
  · rw [hafter, hnew]
    exact (List.append_nil _).symm
  · rw [hafter, hnew]
    exact (List.append_nil _).symm

end Episode

/-- **A machine has a register of the subscriptions** that were made. -/
structure Machine.Registers (machine : Machine C L) (episodes : List (Episode C L)) : Prop where
  /-- They have all the numbers below the count, in order. -/
  numbers : (subscriptions episodes).map (·.1.number) = List.range machine.subscribers.issued
  /-- Those that stand are the listeners. -/
  listeners : machine.subscribers.listeners = standing episodes

namespace Machine.Registers

variable {machine : Machine C L} {episodes : List (Episode C L)}

/-- No handle is that of two subscriptions. -/
theorem nodup (h : machine.Registers episodes) :
    ((subscriptions episodes).map Prod.fst).Nodup := by
  refine List.Nodup.of_map Handle.number ?_
  rw [List.map_map]
  exact h.numbers.symm ▸ List.nodup_range

/-- **A call keeps the register.** -/
theorem concat {episode : Episode C L} (h : episode.before.Registers episodes)
    (occurs : episode.Occurs) : episode.after.Registers (episodes ++ [episode]) := by
  refine ⟨?_, ?_⟩
  · rw [subscriptions_append, List.map_append, h.numbers, occurs.numbers_eq]
  · rw [standing_append, ← h.listeners, occurs.listeners_eq]

end Machine.Registers

namespace Run

variable {machine last : Machine C L} {episodes past later : List (Episode C L)}
  {episode : Episode C L}

/-- **A run keeps the register.** -/
theorem registers (built : machine.Built) (run : Run machine episodes last) :
    last.Registers episodes := by
  induction run with
  | nil =>
    obtain ⟨_, _, _, rfl⟩ := built.eq_new
    exact ⟨rfl, rfl⟩
  | concat _ occurs ih => exact ih.concat occurs

/-- **A call of a run**, with the run up to it. -/
theorem split (run : Run machine (past ++ episode :: later) last) :
    Run machine past episode.before ∧ episode.Occurs := by
  generalize heq : past ++ episode :: later = episodes at run
  induction run generalizing later with
  | nil => exact absurd heq (by simp)
  | @concat episodes final run occurs ih =>
    obtain ⟨rfl, rfl, -⟩ | ⟨middle, -, hepisodes⟩ := split_concat heq.symm
    · exact ⟨run, occurs⟩
    · exact ih hepisodes.symm

end Run

/-! ## Whom a call tells -/

namespace Happening

/-- Whoever is told something, with the handle of their subscription. -/
def addressee? : Happening L → Option (Handle × L)
  | .told handle listener _ _ => some (handle, listener)
  | _ => none

theorem isSuccess_deed {name : String} {answer : Answer} :
    (answer.deed name : Happening L).isSuccess = true ↔ answer.Succeeded := by
  obtain ⟨event, asked, reply⟩ := answer
  cases reply with
  | ok leaf => exact iff_of_true rfl ⟨leaf, rfl⟩
  | error error => exact iff_of_false nofun nofun

end Happening

namespace Block

/-- **Whoever is told by a dispatch**, in order. -/
def audience (block : Block L) : List (Handle × L) :=
  block.deeds.filterMap Happening.addressee?

/-- **A dispatch is overtaken** if one of its actions has an event handled. -/
def isOvertaken (block : Block L) : Bool := block.deeds.any Happening.isSuccess

end Block

/-- Answers tell nobody. -/
theorem filterMap_addressee?_answers (name : String) (answers : List Answer) :
    (answers.map (Answer.deed name) : List (Happening L)).filterMap Happening.addressee?
      = [] := by
  refine List.filterMap_eq_nil_iff.mpr fun deed hmem => ?_
  obtain ⟨answer, -, rfl⟩ := List.mem_map.mp hmem
  rfl

/-- **A dispatch tells every listener once, in their order**, or nobody if it is
overtaken. -/
theorem Conduct.audience {listeners : List (Handle × L)} {occasion : Occasion}
    {steps : List Step} {deeds : List (Happening L)}
    (h : Conduct listeners occasion steps deeds) :
    deeds.filterMap Happening.addressee?
      = if deeds.any Happening.isSuccess then [] else listeners := by
  induction h with
  | arrive =>
    rw [List.filterMap_map, List.any_map, if_neg]
    · exact List.filterMap_some
    · simp [Happening.isSuccess]
  | pass _ ih => exact ih
  | @perform step steps deeds name answers failed _ ih =>
    have hfailed : (answers.map (Answer.deed name) : List (Happening L)).any
        Happening.isSuccess = false := by
      rw [List.any_map, List.any_eq_false]
      exact fun answer hmem => mt Happening.isSuccess_deed.mp (failed answer hmem)
    show (List.map (Answer.deed name) answers ++ deeds).filterMap _
      = if (List.map (Answer.deed name) answers ++ deeds).any _ then [] else listeners
    rw [List.filterMap_append, filterMap_addressee?_answers, List.any_append, hfailed,
      Bool.false_or, List.nil_append]
    exact ih
  | @overtaken step steps name answers succeeded =>
    have hsuccess : (answers.map (Answer.deed name) : List (Happening L)).any
        Happening.isSuccess = true := by
      rw [List.any_map, List.any_eq_true]
      obtain ⟨answer, hmem, hanswer⟩ := succeeded
      exact ⟨answer, hmem, Happening.isSuccess_deed.mpr hanswer⟩
    show (List.map (Answer.deed name) answers).filterMap _
      = if (List.map (Answer.deed name) answers).any _ then [] else listeners
    rw [filterMap_addressee?_answers, hsuccess]
    rfl

/-- **Whatever happens happens in a block**, other than that a dispatch begins. -/
theorem Flattens.exists_block {own low high : Nat} {journal : Journal L}
    {blocks : List (Block L)} (h : Flattens own low high journal [] blocks)
    {entry : Journal.Entry L} (hmem : entry ∈ journal)
    (hbeginning : entry.happening.isBeginning = false) :
    ∃ block ∈ blocks, entry.dispatch = block.number ∧ entry.happening ∈ block.deeds := by
  have hdeed : entry.happening ∈ journal.deeds entry.dispatch :=
    List.mem_map.mpr ⟨entry, List.mem_filter.mpr ⟨hmem, by simp [hbeginning]⟩, rfl⟩
  obtain hown | hother := h.within entry hmem
  · rw [hown, h.mine] at hdeed
    exact nomatch hdeed
  · have hnumber : entry.dispatch ∈ blocks.map (·.number) := by
      rw [h.numbers, List.mem_range'_1]
      omega
    obtain ⟨block, hblock, hsame⟩ := List.mem_map.mp hnumber
    rw [← hsame, h.others block hblock] at hdeed
    exact ⟨block, hblock, hsame.symm, hdeed⟩

/-- **Whom a call tells**, if these are the listeners. -/
structure Episode.Tells (episode : Episode C L) (listeners : List (Handle × L)) : Prop where
  /-- Each of its dispatches tells all of them once, in their order, or nobody if it is
  overtaken. -/
  audience : ∀ block ∈ episode.journal.blocks,
    block.audience = if block.isOvertaken then [] else listeners
  /-- Nobody is told anything but by a dispatch. -/
  told : ∀ entry ∈ episode.journal, entry.happening.addressee?.isSome →
    ∃ block ∈ episode.journal.blocks,
      entry.dispatch = block.number ∧ entry.happening ∈ block.deeds

namespace Episode

/-- A call does nothing, or its journal is that of the dispatches it has carried out. -/
theorem Occurs.flattens {episode : Episode C L} (h : episode.Occurs) :
    Flattens 0 episode.before.dispatches episode.after.dispatches episode.journal []
        episode.journal.blocks
      ∧ ∀ block ∈ episode.journal.blocks,
        block.Carried episode.before.subscribers.listeners := by
  cases h using Occurs.byCourse with
  | start _ course =>
    obtain ⟨error, rfl⟩ | ⟨block, blocks, hstarted, hflat, hsequence⟩ := course.unfolds
    · exact ⟨.of_own (List.forall_mem_nil _), List.forall_mem_nil _⟩
    · have hzero := hflat 0 (Nat.zero_le _)
      exact hzero.blocks_eq.symm ▸
        ⟨hzero, List.forall_mem_cons.mpr ⟨hstarted.toCarried, hsequence.carried⟩⟩
  | send _ course =>
    obtain ⟨error, rfl⟩ | ⟨current, block, blocks, -, hsent, hflat, hsequence⟩ :=
      course.unfolds
    · exact ⟨.of_own (List.forall_mem_nil _), List.forall_mem_nil _⟩
    · have hzero := hflat 0 (Nat.zero_le _)
      exact hzero.blocks_eq.symm ▸
        ⟨hzero, List.forall_mem_cons.mpr ⟨hsent.toCarried, hsequence.carried⟩⟩
  | change =>
    show Flattens 0 _ (Machine.change _ _).dispatches [] [] _ ∧ _
    rw [Machine.dispatches_change]
    exact ⟨.of_own (List.forall_mem_nil _), List.forall_mem_nil _⟩

/-- **A call tells those who listen to the machine.** -/
theorem Occurs.tells {episode : Episode C L} (h : episode.Occurs) :
    episode.Tells episode.before.subscribers.listeners := by
  obtain ⟨hflat, hcarried⟩ := h.flattens
  refine ⟨fun block hmem => (hcarried block hmem).conduct.audience, fun entry hmem htold => ?_⟩
  refine hflat.exists_block hmem ?_
  cases hhappening : entry.happening with
  | began =>
    rw [hhappening] at htold
    exact nomatch htold
  | _ => rfl

end Episode

/-! ## Runs -/

/-- A subscription is ended exactly if its listener is still there. -/
theorem Machine.unsubscribe_iff {machine : Machine C L} {handle : Handle} :
    (machine.unsubscribe handle).1 = true
      ↔ ∃ listener, (handle, listener) ∈ machine.subscribers.listeners := by
  refine List.any_eq_true.trans ⟨?_, ?_⟩
  · rintro ⟨⟨other, listener⟩, hmem, heq⟩
    exact ⟨listener, beq_iff_eq.mp heq ▸ hmem⟩
  · rintro ⟨listener, hmem⟩
    exact ⟨_, hmem, beq_self_eq_true handle⟩

namespace Run

variable {machine last : Machine C L} {episodes past later : List (Episode C L)}
  {episode : Episode C L} {handle : Handle}

/-- **A handle is never used again**: once a call was to end its subscription, nothing
stands under it. -/
theorem not_mem_standing (built : machine.Built) (run : Run machine (past ++ episode :: later) last)
    (hcall : episode.call = .change (.unsubscribe handle))
    (hissued : handle ∈ (subscriptions past).map Prod.fst) (listener : L) :
    (handle, listener) ∉ standing (past ++ episode :: later) := by
  rw [standing_append, List.mem_append, not_or]
  constructor
  · intro hmem
    have houtlasts := of_decide_eq_true (List.mem_filter.mp hmem).2
    exact houtlasts episode List.mem_cons_self (Episode.ending?_eq_some hcall)
  · -- whatever was subscribed later has other handles
    intro hmem
    have hnodup := (run.registers built).nodup
    rw [subscriptions_append, List.map_append] at hnodup
    refine List.disjoint_of_nodup_append hnodup hissued ?_
    exact List.mem_map.mpr ⟨_, (standing_sublist _).subset hmem, rfl⟩

/-- **Listeners are those who have subscribed and have not unsubscribed since**, in the
order in which they subscribed. No handle is that of two subscriptions. Whatever call is
made, each of its dispatches tells all who listen at that time once, in their order,
unless it is overtaken, and nobody else; the same is true of whatever an action sends at
any moment. To unsubscribe answers whether the subscription still stood, and takes away
its listener only; after that the handle never stands for anyone again. -/
theorem subscriptions_stand (built : machine.Built) (run : Run machine episodes last) :
    ((subscriptions episodes).map Prod.fst).Nodup
      ∧ (standing episodes).Sublist (subscriptions episodes)
      ∧ (∀ past episode later, episodes = past ++ episode :: later →
        episode.Tells (standing past))
      ∧ (∀ now, now = last ∨ last.During now → now.subscribers.listeners = standing episodes
        ∧ ∀ call : Episode C L, call.Occurs → call.before = now → call.Tells (standing episodes))
      ∧ ∀ handle,
        ((last.unsubscribe handle).1 = true ↔ ∃ listener, (handle, listener) ∈ standing episodes)
        ∧ (last.unsubscribe handle).2.subscribers.listeners
          = (standing episodes).filter (·.1 ≠ handle)
        ∧ ∀ past episode later, episodes = past ++ episode :: later →
          episode.call = .change (.unsubscribe handle) →
          handle ∈ (subscriptions past).map Prod.fst → (last.unsubscribe handle).1 = false := by
  have hregisters := run.registers built
  refine ⟨hregisters.nodup, standing_sublist _, ?_, ?_, fun handle => ⟨?_, ?_, ?_⟩⟩
  · rintro past episode later rfl
    obtain ⟨earlier, occurs⟩ := run.split
    exact (earlier.registers built).listeners ▸ occurs.tells
  · intro now hnow
    have hsame : now.subscribers.listeners = standing episodes := by
      obtain rfl | hduring := hnow
      · exact hregisters.listeners
      · rw [hduring.keeps.subscribers, hregisters.listeners]
    refine ⟨hsame, fun call occurs hbefore => ?_⟩
    rw [← hsame, ← hbefore]
    exact occurs.tells
  · rw [Machine.unsubscribe_iff, hregisters.listeners]
  · rw [← hregisters.listeners]
    refine List.filter_congr fun subscription _ => Bool.eq_iff_iff.mpr ?_
    rw [bne_iff_ne, decide_eq_true_iff]
  · rintro past episode later rfl hcall hissued
    rw [Bool.eq_false_iff, Ne, Machine.unsubscribe_iff, hregisters.listeners]
    rintro ⟨listener, hmem⟩
    exact run.not_mem_standing built hcall hissued listener hmem

/-- Two listen to the lamp before it is started; then the first unsubscribes and a third
subscribes. The second and the third are left, in this order. -/
theorem subscriptions_stand_lamp : ∃ episodes last, Run Lamp.machine episodes last
    ∧ standing episodes = [(⟨1⟩, "second"), (⟨2⟩, "third")]
    ∧ last.subscribers.listeners = [(⟨1⟩, "second"), (⟨2⟩, "third")]
    ∧ (last.unsubscribe ⟨0⟩).1 = false ∧ (last.unsubscribe ⟨1⟩).1 = true := by
  have hstart : (((Lamp.machine.change (.subscribe "first")).change (.subscribe "second")).start
        1).map Machine.Outcome.machine
      = some ((Lamp.off.change (.subscribe "first")).change (.subscribe "second")) := rfl
  obtain ⟨⟨result, now, journal⟩, hstarted, hmachine⟩ := Option.map_eq_some_iff.mp hstart
  obtain rfl : now = _ := hmachine
  have run := Run.concat (.concat (.concat (.concat (.concat .nil
    (.change (.subscribe "first") Lamp.machine)) (.change (.subscribe "second") _))
    (.start hstarted)) (.change (.unsubscribe ⟨0⟩) _)) (.change (.subscribe "third") _)
  obtain ⟨-, -, -, hnow, hended⟩ := subscriptions_stand Lamp.built run
  refine ⟨_, _, run, rfl, (hnow _ (.inl rfl)).1, ?_, (hended ⟨1⟩).1.mpr ⟨"second", ?_⟩⟩
  · exact (hended ⟨0⟩).2.2 [_, _, _] _ [_] rfl rfl List.mem_cons_self
  · exact List.mem_cons_self

end Run

end Statechart
