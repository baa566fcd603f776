import Mathlib.Data.List.Forall2
import Statechart.Proofs.Machine.Fold
import Statechart.Proofs.Machine.Twins

/-!
# Starting afresh

A machine that has been stopped keeps the path that was active, its history and its count
of dispatches. It keeps them in vain: once it is started again, there is no telling it from
a machine that has just been made (`Run.restarts_afresh`). The two of them are of a kind,
so the start makes twins of them, and they stay twins through every call after it, also
through what actions send before any leaf is entered.

To compare any run of one with any run of the other, the run of one is mirrored by the
other (`Run.exists_mirrored`), and a machine has only one run with given calls
(`Run.unique`).
-/

namespace Statechart

variable {C L : Type}

open Machine (Outcome)

/-! ## One outcome -/

/-- **A course has one outcome.** -/
theorem Course.unique {activity : Activity C} {machine : Machine C L} {outcome other : Outcome C L}
    (h : Course activity machine outcome) (h' : Course activity machine other) :
    other = outcome := by
  obtain ⟨least, hreturns⟩ := h.exists_limit
  obtain ⟨least', hreturns'⟩ := h'.exists_limit
  have hboth := hreturns (max least least') (Nat.le_max_left _ _)
  have hboth' := hreturns' (max least least') (Nat.le_max_right _ _)
  cases activity with
  | act number name program =>
    obtain ⟨hmachine, hjournal⟩ := Prod.mk.inj (Option.some.inj (hboth'.symm.trans hboth))
    have hresult : other.result = outcome.result := by
      rw [h.result_of_act, h'.result_of_act, hmachine]
    show Outcome.mk other.result other.machine other.journal = _
    rw [hresult, hmachine, hjournal]
  | walk | send | start => exact Option.some.inj (hboth'.symm.trans hboth)

/-- **A call has one answer**, and leaves one machine. -/
theorem Episode.Occurs.unique {episode other : Episode C L} (h : episode.Occurs)
    (h' : other.Occurs) (hcall : other.call = episode.call)
    (hbefore : other.before = episode.before) : other = episode := by
  cases h using Occurs.byCourse with
  | start _ course =>
    cases h' using Occurs.byCourse with
    | start _ course' =>
      obtain rfl := hbefore
      rw [course.unique course']
    | send _ _ => exact nomatch hcall
    | change => exact nomatch hcall
  | send _ course =>
    cases h' using Occurs.byCourse with
    | start _ _ => exact nomatch hcall
    | send _ course' =>
      obtain rfl := hbefore
      obtain rfl := Call.send.inj hcall
      rw [course.unique course']
    | change => exact nomatch hcall
  | change change machine =>
    cases h' using Occurs.byCourse with
    | start _ _ => exact nomatch hcall
    | send _ _ => exact nomatch hcall
    | change change' machine' =>
      obtain rfl := hbefore
      obtain rfl := Call.change.inj hcall
      rfl

/-- **A machine has one run with given calls.** -/
theorem Run.unique {machine last last' : Machine C L} {episodes episodes' : List (Episode C L)}
    (run : Run machine episodes last) (run' : Run machine episodes' last')
    (hcalls : episodes'.map Episode.call = episodes.map Episode.call) :
    episodes' = episodes ∧ last' = last := by
  induction run generalizing episodes' last' with
  | nil =>
    obtain rfl := List.map_eq_nil_iff.mp hcalls
    exact ⟨rfl, run'.eq_of_nil⟩
  | concat run occurs ih =>
    rw [List.map_append] at hcalls
    cases run' with
    | nil => exact absurd hcalls (by simp)
    | concat run' occurs' =>
      rw [List.map_append] at hcalls
      obtain ⟨hearlier, hcall⟩ := List.append_inj' hcalls rfl
      obtain ⟨rfl, hbefore⟩ := ih run' hearlier
      obtain rfl := occurs.unique occurs' (List.singleton_inj.mp hcall) hbefore
      exact ⟨rfl, rfl⟩

/-! ## The same from outside -/

/-- **Machines that look the same** to whoever asks them. -/
structure Machine.Resembles (machine other : Machine C L) : Prop where
  /-- Whether they are running, the active path and the history are the same. -/
  configuration : other.toConfiguration = machine.toConfiguration
  /-- So is the context. -/
  context : other.context = machine.context
  /-- They are within the same paths. -/
  isWithin : ∀ outer, other.isWithin outer = machine.isWithin outer
  /-- They would handle the same events. -/
  can : ∀ event, other.can event = machine.can event
  /-- They name the same events. -/
  nextEvents : other.nextEvents = machine.nextEvents

/-- Twins look the same. -/
theorem Machine.Twins.resembles {lag : Int} {machine other : Machine C L}
    (h : machine.Twins lag other) : machine.Resembles other := by
  refine ⟨h.configuration, h.context, fun outer => ?_, fun event => ?_, ?_⟩
  · unfold Machine.isWithin
    rw [h.active]
  · unfold Machine.can
    simp only [h.status, h.active, h.tree.handler?]
  · unfold Machine.nextEvents
    rw [h.active, funext h.tree.nextEvents]

/-- **Calls that cannot be told apart**: they have the same answer, the same is seen of
them, and the machines look the same afterwards. -/
structure Episode.Resembles (episode other : Episode C L) : Prop where
  call : other.call = episode.call
  answer : other.answer = episode.answer
  seen : other.journal.seen = episode.journal.seen
  after : episode.after.Resembles other.after

/-- The same calls resemble one another. -/
theorem calls_eq_of_resembles {episodes others : List (Episode C L)}
    (h : List.Forall₂ Episode.Resembles episodes others) :
    others.map Episode.call = episodes.map Episode.call := by
  induction h with
  | nil => rfl
  | cons hfirst _ ih => rw [List.map_cons, List.map_cons, hfirst.call, ih]

/-! ## Runs of twins -/

/-- **Calls that drive a machine**: it is started, stopped or sent an event. -/
inductive Call.Drives : Call C L → Prop where
  | start : Drives .start
  | send (event : String) : Drives (.send event)
  | stop : Drives (.change .stop)

namespace Episode

variable {lag : Int} {episode : Episode C L} {other : Machine C L}

/-- **A call that drives one of two twins** drives the other likewise; and a start does so
if they are only of a kind, and stopped. -/
theorem Occurs.exists_mirrored (h : episode.Occurs) (hdrives : episode.call.Drives)
    (hfit : episode.before.Twins lag other
      ∨ (episode.call = .start ∧ episode.before.Kin lag other
        ∧ episode.before.status = .stopped ∧ other.status = .stopped)) :
    ∃ mirrored : Episode C L, mirrored.Occurs ∧ mirrored.before = other
      ∧ episode.Resembles mirrored ∧ episode.after.Twins lag mirrored.after := by
  cases h using Occurs.byCourse with
  | start _ course =>
    obtain ⟨mirrored, hcourse, hmirrors⟩ := course.mirrored other (hfit.imp_right (·.2))
    refine ⟨_, .of_start hcourse, rfl, ?_, hmirrors.twins⟩
    exact ⟨rfl, congrArg some hmirrors.result, hmirrors.seen, hmirrors.twins.resembles⟩
  | send _ course =>
    obtain htwins | ⟨hcall, -⟩ := hfit
    · obtain ⟨mirrored, hcourse, hmirrors⟩ := course.mirrored other htwins
      refine ⟨_, .of_send hcourse, rfl, ?_, hmirrors.twins⟩
      exact ⟨rfl, congrArg some hmirrors.result, hmirrors.seen, hmirrors.twins.resembles⟩
    · exact nomatch hcall
  | change change machine =>
    cases hdrives with
    | stop =>
      obtain htwins | ⟨hcall, -⟩ := hfit
      · exact ⟨_, .change .stop other, rfl, ⟨rfl, rfl, rfl, htwins.stop.resembles⟩, htwins.stop⟩
      · exact nomatch hcall

end Episode

namespace Run

variable {lag : Int} {machine other last : Machine C L} {episodes : List (Episode C L)}

/-- **A run that begins with a start is mirrored** by a machine of a kind. -/
theorem exists_mirrored {calls : List (Call C L)} (run : Run machine episodes last)
    (hcalls : episodes.map Episode.call = .start :: calls) (hdrives : ∀ call ∈ calls, call.Drives)
    (hkin : machine.Kin lag other) (hstopped : machine.status = .stopped)
    (hstopped' : other.status = .stopped) :
    ∃ others last', Run other others last' ∧ List.Forall₂ Episode.Resembles episodes others
      ∧ last.Twins lag last' := by
  induction run generalizing calls with
  | nil => exact nomatch hcalls
  | @concat episodes episode run occurs ih =>
    rw [List.map_append] at hcalls
    obtain rfl | ⟨earlier, final, rfl⟩ := List.eq_nil_or_concat' calls
    · -- the only call is the start
      have hstart : List.map Episode.call episodes ++ [episode.call] = [] ++ [.start] := hcalls
      obtain ⟨hnone, hcall⟩ := List.append_inj' hstart rfl
      obtain rfl := List.map_eq_nil_iff.mp hnone
      obtain rfl := run.eq_of_nil
      have hcall' := List.singleton_inj.mp hcall
      obtain ⟨mirrored, hoccurs, rfl, hresembles, htwins⟩ :=
        occurs.exists_mirrored (hcall' ▸ .start) (.inr ⟨hcall', hkin, hstopped, hstopped'⟩)
      exact ⟨_, _, .concat .nil hoccurs, .cons hresembles .nil, htwins⟩
    · have hconcat : List.map Episode.call episodes ++ [episode.call]
          = (.start :: earlier) ++ [final] := hcalls
      obtain ⟨hearlier, hcall⟩ := List.append_inj' hconcat rfl
      obtain ⟨hbefore, hfinal⟩ := List.forall_mem_append.mp hdrives
      obtain ⟨others, before, hrun, hresemble, htwins⟩ := ih hearlier hbefore
      have hdrives' : episode.call.Drives :=
        List.singleton_inj.mp hcall ▸ List.forall_mem_singleton.mp hfinal
      obtain ⟨mirrored, hoccurs, rfl, hresembles, htwins'⟩ :=
        occurs.exists_mirrored hdrives' (.inl htwins)
      refine ⟨_, _, .concat hrun hoccurs, ?_, htwins'⟩
      exact List.rel_append hresemble (.cons hresembles .nil)

/-- **Runs of machines of a kind that begin with a start** cannot be told apart. -/
theorem indistinguishable (hkin : machine.Kin lag other) (hstopped : machine.status = .stopped)
    (hstopped' : other.status = .stopped) {calls : List (Call C L)}
    (hdrives : ∀ call ∈ calls, call.Drives) :
    ((∃ episodes now, Run machine episodes now ∧ episodes.map Episode.call = .start :: calls)
        ↔ ∃ episodes now, Run other episodes now ∧ episodes.map Episode.call = .start :: calls)
      ∧ ∀ episodes now others now', Run machine episodes now → Run other others now' →
        episodes.map Episode.call = .start :: calls → others.map Episode.call = .start :: calls →
          List.Forall₂ Episode.Resembles episodes others := by
  refine ⟨⟨?_, ?_⟩, ?_⟩
  · rintro ⟨episodes, now, run, hcalls⟩
    obtain ⟨others, now', run', hresemble, -⟩ :=
      run.exists_mirrored hcalls hdrives hkin hstopped hstopped'
    exact ⟨others, now', run', (calls_eq_of_resembles hresemble).trans hcalls⟩
  · rintro ⟨episodes, now, run, hcalls⟩
    obtain ⟨others, now', run', hresemble, -⟩ :=
      run.exists_mirrored hcalls hdrives hkin.symm hstopped' hstopped
    exact ⟨others, now', run', (calls_eq_of_resembles hresemble).trans hcalls⟩
  · intro episodes now others now' run run' hcalls hcalls'
    obtain ⟨mirrored, last, hrun, hresemble, -⟩ :=
      run.exists_mirrored hcalls hdrives hkin hstopped hstopped'
    have hsame := (calls_eq_of_resembles hresemble).trans (hcalls.trans hcalls'.symm)
    obtain ⟨rfl, -⟩ := run'.unique hrun hsame
    exact hresemble

end Run

/-! ## A machine that is made anew -/

namespace Machine

/-- The machine with more listeners, who subscribe one after the other. -/
def subscribeAll (machine : Machine C L) (listeners : List L) : Machine C L :=
  listeners.foldl (fun machine listener => (machine.subscribe listener).2) machine

/-- Nothing else changes when listeners subscribe. -/
theorem subscribeAll_eq (machine : Machine C L) (listeners : List L) :
    ∃ subscribers, machine.subscribeAll listeners = { machine with subscribers }
      ∧ subscribers.listeners.map Prod.snd = machine.audience ++ listeners := by
  induction listeners generalizing machine with
  | nil => exact ⟨machine.subscribers, rfl, (List.append_nil _).symm⟩
  | cons listener listeners ih =>
    obtain ⟨subscribers, heq, haudience⟩ := ih (machine.subscribe listener).2
    refine ⟨subscribers, heq, haudience.trans ?_⟩
    show List.map Prod.snd (machine.subscribers.listeners ++ [(_, listener)]) ++ listeners = _
    rw [List.map_append, List.append_assoc]
    rfl

theorem ofTree_eq_ok_iff {tree : Tree} {context : C} {registry : Registry (Action C)}
    {machine : Machine C L} :
    Machine.ofTree tree context registry = .ok machine
      ↔ ∃ bindings, registry.bind tree = .ok bindings ∧ machine = { tree, context, bindings } := by
  unfold Machine.ofTree
  cases registry.bind tree with
  | error error => exact iff_of_false nofun nofun
  | ok bindings =>
    constructor
    · intro ok
      exact ⟨bindings, rfl, (Except.ok.inj ok).symm⟩
    · rintro ⟨_, hbindings, rfl⟩
      obtain rfl := Except.ok.inj hbindings
      rfl

@[simp] theorem bindings_change {machine : Machine C L} {change : Change C L} :
    (machine.change change).bindings = machine.bindings := by
  cases change <;> rfl

end Machine

/-- No run changes the actions. -/
theorem Run.bindings_eq {machine last : Machine C L} {episodes : List (Episode C L)}
    (run : Run machine episodes last) : last.bindings = machine.bindings := by
  induction run with
  | nil => rfl
  | concat _ occurs ih =>
    cases occurs using Episode.Occurs.byCourse with
    | start _ course => exact course.keeps.bindings.trans ih
    | send _ course => exact course.keeps.bindings.trans ih
    | change => exact Machine.bindings_change.trans ih

/-- **A machine that is started again is as good as new.** Take a machine that was made of
a tree and a registry, as all machines are, and has been through any calls, and stop it.
Then make another of the same tree, the same registry and the context that the first one
has now, which can be done, and let the same listeners subscribe in the same order. If both
are started and then started, stopped and sent events in the same way, both runs come to an
end or neither does; and call by call they have the same answers, run the same actions,
which are told and answered the same, call the same listeners in the same order, and look
the same afterwards. -/
theorem Run.restarts_afresh {tree : Tree} {context : C} {registry : Registry (Action C)}
    {old last : Machine C L} {past : List (Episode C L)}
    (made : Machine.ofTree tree context registry = .ok old) (run : Run old past last) :
    ∃ newborn : Machine C L, Machine.ofTree tree last.context registry = .ok newborn
      ∧ ∀ calls : List (Call C L), (∀ call ∈ calls, call.Drives) →
        ((∃ episodes now, Run last.stop episodes now
              ∧ episodes.map Episode.call = .start :: calls)
            ↔ ∃ episodes now, Run (newborn.subscribeAll last.audience) episodes now
              ∧ episodes.map Episode.call = .start :: calls)
          ∧ ∀ episodes now others now', Run last.stop episodes now →
            Run (newborn.subscribeAll last.audience) others now' →
            episodes.map Episode.call = .start :: calls →
            others.map Episode.call = .start :: calls →
              List.Forall₂ Episode.Resembles episodes others := by
  obtain ⟨bindings, hbind, rfl⟩ := Machine.ofTree_eq_ok_iff.mp made
  refine ⟨_, Machine.ofTree_eq_ok_iff.mpr ⟨bindings, hbind, rfl⟩, fun calls hdrives => ?_⟩
  obtain ⟨subscribers, heq, haudience⟩ := Machine.subscribeAll_eq
    ({ tree, context := last.context, bindings } : Machine C L) last.audience
  rw [heq]
  -- what was counted by the one is all that the other lags behind
  have hkin : last.stop.Kin (-last.dispatches)
      { tree, context := last.context, bindings, subscribers } := by
    refine ⟨?_, run.bindings_eq.symm, rfl, haudience, ?_⟩
    · show last.tree.Alike tree
      rw [run.tree_eq]
      exact .refl tree
    · show (0 : Int) = last.dispatches + -last.dispatches
      omega
  exact indistinguishable hkin rfl rfl hdrives

/-- The lamp can be turned on again after it has been stopped while it was dim, and does
what a new lamp does. -/
theorem Run.restarts_afresh_lamp : ∃ episodes others now, Run Lamp.dim.stop episodes now
    ∧ Run Lamp.machine others Lamp.dim ∧ episodes.map Episode.call = [.start, .send "flip"]
    ∧ List.Forall₂ Episode.Resembles episodes others := by
  obtain ⟨others, run, hcalls⟩ := Lamp.exists_run
  have made : Machine.ofTree Lamp.machine.tree ()
      (Registry.empty.register "settle" Lamp.settle) = .ok Lamp.machine := rfl
  obtain ⟨newborn, hnew, hafresh⟩ := restarts_afresh made run
  obtain rfl : Lamp.machine = newborn := Except.ok.inj hnew
  obtain ⟨hiff, hresemble⟩ := hafresh [.send "flip"] (List.forall_mem_singleton.mpr (.send "flip"))
  -- the lamp is new itself
  obtain ⟨episodes, now, again, hcalls'⟩ := hiff.mpr ⟨others, Lamp.dim, run, hcalls⟩
  exact ⟨episodes, others, now, again, run, hcalls',
    hresemble _ _ _ _ again run hcalls' hcalls⟩

end Statechart
