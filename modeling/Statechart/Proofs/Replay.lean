import Statechart.Action.Program
import Statechart.Proofs.Path.Prefix

/-!
# Replaying steps

A list of steps makes sense where each of them starts from what the one before
has left: a node is entered from its parent and exited only while it is the
innermost active node, and the root is entered while nothing is active. `Replay`
says so, and says which path is active in the end.

The steps of a replay have the discipline of a stack. `Replay.count_entry` counts
them: since the beginning, every node was entered exactly as often as it was
exited, and once more if it is active.
-/

namespace Statechart

/-- **What a step does to the active path**: the root is entered while nothing is
active, any other node from its parent, and only the innermost active node is
exited. -/
inductive Moves : Option Path → Step → Path → Prop where
  /-- The root is entered. -/
  | begin : Moves none ⟨.entry, .root⟩ .root
  /-- A child of the active path is entered. -/
  | enter (outer : Path) (id : String) :
    Moves (some outer) ⟨.entry, outer.child id⟩ (outer.child id)
  /-- The active path is exited, and its parent is active. -/
  | leave (outer : Path) (id : String) :
    Moves (some (outer.child id)) ⟨.exit, outer.child id⟩ outer

/-- **Steps in order**, from an active path to an active path. -/
inductive Replay : Option Path → List Step → Option Path → Prop where
  /-- Nothing is done. -/
  | nil {active : Option Path} : Replay active [] active
  /-- A step and then the others. -/
  | cons {active last : Option Path} {step : Step} {next : Path} {rest : List Step}
    (move : Moves active step next) (replay : Replay (some next) rest last) :
    Replay active (step :: rest) last

/-- A step arrives where it moves to. -/
theorem Moves.arrival_eq {active : Option Path} {step : Step} {next : Path}
    (h : Moves active step next) : step.arrival = next := by
  cases h with
  | begin => rfl
  | enter => rfl
  | leave _ id => exact Path.parentOrRoot_child next id

/-- How often a node is active: once or not at all. -/
def level (active : Option Path) (node : Path) : Nat :=
  if active.any (·.startsWith node) then 1 else 0

/-- A child is active with its parent, and is active itself. -/
theorem level_child (outer node : Path) (id : String) :
    level (some (outer.child id)) node
      = level (some outer) node + if outer.child id = node then 1 else 0 := by
  unfold level
  simp only [Option.any_some]
  by_cases heq : outer.child id = node
  · subst heq
    have hnot : outer.startsWith (outer.child id) = false := by
      apply Bool.eq_false_iff.mpr
      intro h
      have hle := Path.length_le_of_startsWith h
      rw [Path.length_child] at hle
      omega
    simp [hnot]
  · have hiff : (outer.child id).startsWith node = true ↔ outer.startsWith node = true := by
      rw [Path.startsWith_child_iff]
      exact or_iff_right (Ne.symm heq)
    simp only [hiff, if_neg heq, Nat.add_zero]

theorem level_root (node : Path) : level (some .root) node = if .root = node then 1 else 0 := by
  unfold level
  refine if_congr ⟨fun h => (Path.eq_root_of_startsWith h).symm, ?_⟩ rfl rfl
  rintro rfl
  exact Path.startsWith_self .root

namespace Replay

variable {active middle last : Option Path} {steps steps' : List Step}

theorem append (h : Replay active steps middle) (h' : Replay middle steps' last) :
    Replay active (steps ++ steps') last := by
  induction h with
  | nil => exact h'
  | cons move _ ih => exact .cons move (ih h')

/-- A step more at the end. -/
theorem concat {path next : Path} {step : Step} (h : Replay active steps (some path))
    (move : Moves (some path) step next) : Replay active (steps ++ [step]) (some next) :=
  h.append (.cons move .nil)

/-- **The root is not entered or exited** while a path is active. -/
theorem node_ne_root {path : Path} (h : Replay (some path) steps last) :
    ∀ step ∈ steps, step.node ≠ .root := by
  generalize hactive : some path = active at h
  induction h generalizing path with
  | nil => exact fun _ hmem => nomatch hmem
  | cons move _ ih =>
    refine List.forall_mem_cons.mpr ⟨?_, ih rfl⟩
    cases move with
    | begin => exact nomatch hactive
    | enter outer id => exact Path.child_ne_root outer id
    | leave _ id => exact Path.child_ne_root _ id

/-- Where nothing is active, the root is entered first. -/
theorem eq_cons_of_none {path : Path} (h : Replay none steps (some path)) :
    ∃ rest, steps = ⟨.entry, .root⟩ :: rest ∧ Replay (some .root) rest (some path) := by
  cases h with
  | cons move replay =>
    cases move with
    | begin => exact ⟨_, rfl, replay⟩

/-- The steps up to some point lead on to somewhere. -/
theorem exists_middle (h : Replay active (steps ++ steps') last) :
    ∃ middle, Replay active steps middle ∧ Replay middle steps' last := by
  induction steps generalizing active with
  | nil => exact ⟨active, .nil, h⟩
  | cons step steps ih =>
    cases h with
    | cons move replay =>
      obtain ⟨middle, hbefore, hafter⟩ := ih replay
      exact ⟨middle, .cons move hbefore, hafter⟩

/-- **A node is entered as often as it is exited**, and once more if it is active
in the end but was not in the beginning. -/
theorem count_entry (h : Replay active steps last) (node : Path) :
    level active node + steps.count ⟨.entry, node⟩
      = level last node + steps.count ⟨.exit, node⟩ := by
  induction h with
  | nil => rfl
  | @cons _ _ step next rest move _ ih =>
    rw [List.count_cons, List.count_cons]
    -- one step changes the level of the node it is about, and of no other
    cases move with
    | begin =>
      rw [level_root] at ih
      have hnone : level none node = 0 := rfl
      by_cases heq : Path.root = node <;> simp [heq] at ih ⊢ <;> omega
    | enter outer id =>
      rw [level_child] at ih
      by_cases heq : outer.child id = node <;> simp [heq] at ih ⊢ <;> omega
    | leave _ id =>
      rw [level_child]
      by_cases heq : next.child id = node <;> simp [heq] at ih ⊢ <;> omega

end Replay

/-! ## Exiting up to a node, and entering from it

The two halves of a transition: from a path up to one around it, and from there
down to another path. -/

/-- **Exiting what lies below a node** leads up to it. -/
theorem replay_exits {path domain : Path} (h : path.startsWith domain = true) :
    Replay (some path)
      ((path.ancestors.takeWhile fun outer => domain.length < outer.length).map (⟨.exit, ·⟩))
      (some domain) := by
  induction path using Path.induction with
  | root =>
    rw [Path.eq_root_of_startsWith h]
    exact .nil
  | child outer id ih =>
    obtain rfl | houter := Path.startsWith_child_iff.mp h
    · rw [Path.ancestors_child, List.takeWhile_cons_of_neg (by simp)]
      exact .nil
    · have hlt : domain.length < (outer.child id).length := by
        rw [Path.length_child]
        exact Nat.lt_succ_of_le (Path.length_le_of_startsWith houter)
      rw [Path.ancestors_child, List.takeWhile_cons_of_pos (by simpa using hlt), List.map_cons]
      exact .cons (.leave outer id) (ih houter)

/-- **Entering what lies on the way from a node** to a path leads down to it. -/
theorem replay_entries {path domain : Path} (h : path.startsWith domain = true) :
    Replay (some domain) ((path.lineage.drop domain.length).map (⟨.entry, ·⟩)) (some path) := by
  induction path using Path.induction with
  | root =>
    rw [Path.eq_root_of_startsWith h]
    exact .nil
  | child outer id ih =>
    obtain rfl | houter := Path.startsWith_child_iff.mp h
    · rw [List.drop_of_length_le (Nat.le_of_eq (Path.length_lineage _))]
      exact .nil
    · have hle : domain.length ≤ outer.lineage.length := by
        rw [Path.length_lineage]
        exact Path.length_le_of_startsWith houter
      rw [Path.lineage_child, List.drop_append_of_le_length hle, List.map_append]
      exact (ih houter).concat (.enter outer id)

end Statechart
