import Statechart.Proofs.Machine.Refusal
import Statechart.Proofs.Tree.Handler

/-!
# What a machine says it can do

A machine can be asked beforehand whether it would handle an event (`Machine.can`), and
which events it would handle (`Machine.nextEvents`). The answers come from walks around the
active path that have nothing to do with sending, and sending looks up far more: the
target, its leaf, the steps that lead there. Still they are right. A machine that has been
made refuses an event only if it is stopped or has no handler for it, and that is all the
answers depend on (`Machine.can_eq_false_iff`).
-/

namespace Statechart

variable {C L : Type}

open Machine (Outcome)

namespace Machine

variable {machine : Machine C L} {event : String}

/-- **A machine can do what it lists**, as long as it is running. -/
theorem can_eq_true_iff :
    machine.can event = true ↔ machine.status = .running ∧ event ∈ machine.nextEvents := by
  unfold can nextEvents
  rw [Bool.and_eq_true, beq_iff_eq]
  refine and_congr_right fun _ => ?_
  cases machine.active with
  | none => simp
  | some path =>
    show (machine.tree.handler? path event).isSome = true ↔ event ∈ machine.tree.nextEvents path
    rw [Tree.isSome_handler?_iff, Tree.mem_nextEvents]

/-- **What a machine cannot do** it has a reason to refuse. -/
theorem can_eq_false_iff (h : machine.Sound) :
    machine.can event = false ↔ ∃ error, machine.Refuses event error := by
  rw [← Bool.not_eq_true, can_eq_true_iff]
  constructor
  · intro hcannot
    cases hstatus : machine.status with
    | stopped => exact ⟨_, .stopped hstatus⟩
    | running =>
      obtain ⟨-, path, hactive, -⟩ := h hstatus
      refine ⟨_, .unhandled hstatus hactive fun hhandles => hcannot ⟨hstatus, ?_⟩⟩
      unfold nextEvents
      rw [hactive]
      exact Tree.mem_nextEvents.mpr hhandles
  · rintro ⟨error, hrefuses⟩ ⟨hrunning, hlisted⟩
    cases hrefuses with
    | stopped hstopped => exact nomatch hrunning.symm.trans hstopped
    | unhandled _ hactive hunhandled =>
      unfold nextEvents at hlisted
      rw [hactive] at hlisted
      exact hunhandled (Tree.mem_nextEvents.mp hlisted)

end Machine

/-- **An event is handled exactly if the machine can do it** at the moment it is sent. -/
theorem Course.exists_ok_iff_can {event : String} {machine : Machine C L}
    {outcome : Outcome C L} (h : Course (.send event) machine outcome) (hsound : machine.Sound) :
    (∃ leaf, outcome.result = .ok leaf) ↔ machine.can event = true := by
  cases hresult : outcome.result with
  | error error =>
    have hcannot : machine.can event = false :=
      (Machine.can_eq_false_iff hsound).mpr ⟨error, h.refuses hsound hresult⟩
    exact iff_of_false nofun (Bool.eq_false_iff.mp hcannot)
  | ok leaf =>
    refine iff_of_true ⟨leaf, rfl⟩ ?_
    by_contra hcannot
    obtain ⟨error, hrefuses⟩ :=
      (Machine.can_eq_false_iff hsound).mp (Bool.eq_false_iff.mpr hcannot)
    exact nomatch hresult.symm.trans ((h.result_eq_error_iff hsound).mpr hrefuses)

/-- What an action was answered, it could have known before it asked. -/
theorem Episode.Occurs.exists_ok_iff_can {episode : Episode C L} (h : episode.Occurs)
    {entry : Journal.Entry L} (hmem : entry ∈ episode.journal) {name event : String}
    {asked : Configuration} {reply : Except MachineError Path}
    (heq : entry.happening = .answered name event asked reply) :
    (∃ leaf, reply = .ok leaf)
      ↔ Machine.can { episode.before with toConfiguration := asked } event = true := by
  obtain ⟨now, inner, hduring, hcourse, rfl, rfl, -⟩ := h.exists_during hmem heq
  rw [hcourse.exists_ok_iff_can fun _ => hduring.stands]
  unfold Machine.can
  rw [hduring.keeps.tree]

/-- **A machine foretells what it does.** In every tree, the events that are listed for a path
are in ascending order, each of them once, and are those for which a handler is found.
Wherever a machine may be called, it can do exactly what it lists while it is running, and
an event that is sent is handled exactly if the machine could do it just before; so are
those that actions have sent in a run. -/
theorem Machine.foretells :
    (∀ (tree : Tree) (current : Path), (tree.nextEvents current).Pairwise (· < ·)
        ∧ ∀ event, event ∈ tree.nextEvents current
          ↔ (tree.handler? current event).isSome = true)
      ∧ ∀ machine : Machine C L, machine.Built →
        (∀ now, machine.Reachable now → ∀ event,
          (now.can event = true ↔ now.status = .running ∧ event ∈ now.nextEvents)
            ∧ ∀ limit outcome, now.send limit event = some outcome →
              ((∃ leaf, outcome.result = .ok leaf) ↔ now.can event = true))
        ∧ ∀ episodes last, Run machine episodes last → ∀ episode ∈ episodes,
          ∀ entry ∈ episode.journal, ∀ name event asked reply,
            entry.happening = .answered name event asked reply →
              ((∃ leaf, reply = .ok leaf)
                ↔ can { machine with toConfiguration := asked } event = true) := by
  refine ⟨fun tree current => ⟨Tree.pairwise_nextEvents tree current, fun event => ?_⟩, ?_⟩
  · rw [Tree.mem_nextEvents, Tree.isSome_handler?_iff]
  · intro machine built
    refine ⟨fun now hreachable event => ⟨can_eq_true_iff, fun limit outcome returns => ?_⟩, ?_⟩
    · have hcourse := course_send_iff.mpr ⟨limit, returns⟩
      exact hcourse.exists_ok_iff_can (hreachable.sound built.resting)
    · intro episodes last run
      refine run.forall_mem built.resting fun episode occurs _ htree => ?_
      intro entry hmem name event asked reply heq
      rw [occurs.exists_ok_iff_can hmem heq]
      unfold can
      rw [htree]

/-- Once the lamp has faded it lists what it can do next. It can be turned off, and is; it
cannot glow, and does not. -/
theorem Machine.foretells_lamp : Lamp.machine.Reachable Lamp.dim
    ∧ Lamp.dim.nextEvents = ["fade", "flip"]
    ∧ (∃ outcome, Lamp.dim.send 0 "flip" = some outcome ∧ ∃ leaf, outcome.result = .ok leaf)
    ∧ ∃ outcome, Lamp.dim.send 0 "glow" = some outcome
      ∧ ¬ ∃ leaf, outcome.result = .ok leaf := by
  obtain ⟨episodes, run, -⟩ := Lamp.exists_run
  have hreachable : Lamp.machine.Reachable Lamp.dim := .between run
  have hlisted : Lamp.dim.nextEvents = ["fade", "flip"] := rfl
  have hforetells := (foretells.2 _ Lamp.built).1 _ hreachable
  obtain ⟨flipped, hflipped⟩ : ∃ outcome, Lamp.dim.send 0 "flip" = some outcome := ⟨_, rfl⟩
  obtain ⟨refused, hrefused⟩ : ∃ outcome, Lamp.dim.send 0 "glow" = some outcome := ⟨_, rfl⟩
  refine ⟨hreachable, hlisted, ⟨flipped, hflipped, ?_⟩, refused, hrefused, ?_⟩
  · rw [(hforetells "flip").2 0 flipped hflipped, (hforetells "flip").1, hlisted]
    exact ⟨rfl, by decide⟩
  · rw [(hforetells "glow").2 0 refused hrefused, (hforetells "glow").1, hlisted]
    exact fun h => absurd h.2 (by decide)

end Statechart
