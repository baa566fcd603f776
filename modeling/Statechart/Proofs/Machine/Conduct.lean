import Mathlib.Data.List.Basic
import Statechart.Proofs.Machine.Journal

/-!
# What a dispatch does itself

A dispatch takes its steps one by one, and runs the actions of those that have
one. It goes on as long as whatever its actions send is refused. After the first
step whose action had an event handled it is over; otherwise it takes all its
steps, and the listeners are told. `Conduct` says so of the deeds of one dispatch,
without what the dispatches did that its actions set off.

`Flattens` relates a journal to the deeds of the dispatch that it was kept for and
to the blocks of those that began meanwhile: the blocks are numbered one after the
other, and the steps of the dispatch itself come before all of theirs.
-/

namespace Statechart

variable {L : Type}

/-! ## One dispatch -/

/-- **An answer that an action had.** -/
structure Answer where
  /-- The event that it sent. -/
  event : String
  /-- Where the machine was when it sent the event. -/
  asked : Configuration
  /-- What it was answered. -/
  reply : Except MachineError Path

namespace Answer

/-- The event was handled. -/
def Succeeded (answer : Answer) : Prop := ∃ leaf, answer.reply = .ok leaf

/-- An answer as a deed of the dispatch whose action had it. -/
def deed (name : String) (answer : Answer) : Happening L :=
  .answered name answer.event answer.asked answer.reply

end Answer

/-- **What a dispatch does, as long as it is not overtaken**: the steps that it is
to take, and what it does. -/
inductive Conduct (listeners : List (Handle × L)) (occasion : Occasion) :
    List Step → List (Happening L) → Prop where
  /-- It has taken all its steps, and the listeners are told. -/
  | arrive : Conduct listeners occasion []
    (listeners.map fun (handle, listener) =>
      .told handle listener occasion.leaf occasion.event)
  /-- It takes a step without an action. -/
  | pass {step : Step} {steps : List Step} {deeds : List (Happening L)}
    (rest : Conduct listeners occasion steps deeds) :
    Conduct listeners occasion (step :: steps) (.took step :: deeds)
  /-- It takes a step with an action, and nothing that the action sends is
  handled. -/
  | perform {step : Step} {steps : List Step} {deeds : List (Happening L)} {name : String}
    {answers : List Answer} (failed : ∀ answer ∈ answers, ¬ answer.Succeeded)
    (rest : Conduct listeners occasion steps deeds) :
    Conduct listeners occasion (step :: steps)
      (.took step :: .ran name ⟨step, occasion⟩ :: (answers.map (Answer.deed name) ++ deeds))
  /-- It takes a step with an action, and something that the action sends is
  handled. -/
  | overtaken {step : Step} {steps : List Step} {name : String} {answers : List Answer}
    (succeeded : ∃ answer ∈ answers, answer.Succeeded) :
    Conduct listeners occasion (step :: steps)
      (.took step :: .ran name ⟨step, occasion⟩ :: answers.map (Answer.deed name))

/-- Answers are no steps. -/
@[simp] theorem stepsOf_answers (name : String) (answers : List Answer) :
    stepsOf (answers.map (Answer.deed name) : List (Happening L)) = [] := by
  refine List.filterMap_eq_nil_iff.mpr fun deed hmem => ?_
  obtain ⟨answer, -, rfl⟩ := List.mem_map.mp hmem
  rfl

/-- Telling the listeners is no step. -/
@[simp] theorem stepsOf_told (listeners : List (Handle × L)) (leaf : Path) (event : String) :
    stepsOf (listeners.map fun (handle, listener) => .told handle listener leaf event) = [] := by
  refine List.filterMap_eq_nil_iff.mpr fun deed hmem => ?_
  obtain ⟨_, -, rfl⟩ := List.mem_map.mp hmem
  rfl

namespace Conduct

variable {listeners : List (Handle × L)} {occasion : Occasion} {steps : List Step}
  {deeds : List (Happening L)}

/-- **A dispatch takes the first of its steps, or all.** -/
theorem taken_isPrefix (h : Conduct listeners occasion steps deeds) : stepsOf deeds <+: steps := by
  induction h with
  | arrive => exact List.prefix_nil.mpr (stepsOf_told _ _ _)
  | pass _ ih =>
    rw [stepsOf_took]
    exact (List.prefix_cons_inj _).mpr ih
  | perform _ _ ih =>
    rw [stepsOf_took, stepsOf_ran, stepsOf_append, stepsOf_answers, List.nil_append]
    exact (List.prefix_cons_inj _).mpr ih
  | overtaken _ =>
    rw [stepsOf_took, stepsOf_ran, stepsOf_answers]
    exact (List.prefix_cons_inj _).mpr List.nil_prefix

/-- A dispatch with a step to take takes one. -/
theorem taken_ne_nil (h : Conduct listeners occasion steps deeds) (hsteps : steps ≠ []) :
    stepsOf deeds ≠ [] := by
  cases h with
  | arrive => exact absurd rfl hsteps
  | pass _ => exact List.cons_ne_nil _ _
  | perform _ _ => exact List.cons_ne_nil _ _
  | overtaken _ => exact List.cons_ne_nil _ _

end Conduct

/-! ## A journal and its blocks -/

/-- **A journal that was kept for a dispatch**, while others began: what it did
itself, and the blocks of the others. -/
structure Flattens (own low high : Nat) (journal : Journal L) (deeds : List (Happening L))
    (blocks : List (Block L)) : Prop where
  /-- No dispatch is forgotten. -/
  le : low ≤ high
  /-- Only the dispatch itself and the others do something. -/
  within : ∀ entry ∈ journal,
    entry.dispatch = own ∨ low < entry.dispatch ∧ entry.dispatch ≤ high
  /-- The others are numbered one after the other. -/
  numbers : blocks.map (·.number) = List.range' (low + 1) (high - low)
  /-- They begin in this order. -/
  headers : journal.headers = blocks.map (·.toHeader)
  /-- This is what each of them does. -/
  others : ∀ block ∈ blocks, journal.deeds block.number = block.deeds
  /-- This is what the dispatch itself does. -/
  mine : journal.deeds own = deeds
  /-- Each of them takes its steps in one go, first the dispatch itself. -/
  taken : journal.taken = numberedSteps own deeds ++ blocks.flatMap (·.numbered)

namespace Flattens

variable {own low middle high : Nat} {journal journal' : Journal L}
  {deeds deeds' : List (Happening L)} {blocks blocks' : List (Block L)}

/-- The number of a block is one of those that are new. -/
theorem number_mem (h : Flattens own low high journal deeds blocks) {block : Block L}
    (hmem : block ∈ blocks) : low < block.number ∧ block.number ≤ high := by
  have hle := h.le
  have hnumber : block.number ∈ List.range' (low + 1) (high - low) :=
    h.numbers ▸ List.mem_map.mpr ⟨block, hmem, rfl⟩
  rw [List.mem_range'_1] at hnumber
  omega

/-- The blocks of the journal are those of the others. -/
theorem blocks_eq (h : Flattens own low high journal deeds blocks) : journal.blocks = blocks :=
  Journal.blocks_eq h.headers h.others

/-- Where no number is new there is no block. -/
theorem blocks_eq_nil (h : Flattens own low low journal deeds blocks) : blocks = [] := by
  have hnumbers := h.numbers
  rw [Nat.sub_self] at hnumbers
  exact List.map_eq_nil_iff.mp hnumbers

/-- **A journal of one dispatch only.** -/
theorem of_own
    (h : ∀ entry ∈ journal, entry.dispatch = own ∧ entry.happening.isBeginning = false) :
    Flattens own low low journal (journal.map (·.happening)) [] := by
  refine ⟨Nat.le_refl low, fun entry hmem => .inl (h entry hmem).1, ?_, ?_, nofun, ?_, ?_⟩
  · rw [Nat.sub_self]
    rfl
  · refine List.filterMap_eq_nil_iff.mpr fun entry hmem => ?_
    obtain ⟨-, hbeginning⟩ := h entry hmem
    split
    · rename_i hhappening
      rw [hhappening] at hbeginning
      exact nomatch hbeginning
    · rfl
  · unfold Journal.deeds
    rw [List.filter_eq_self.mpr]
    intro entry hmem
    obtain ⟨hdispatch, hbeginning⟩ := h entry hmem
    simp [hdispatch, hbeginning]
  · unfold Journal.taken numberedSteps
    rw [List.flatMap_nil, List.append_nil, stepsOf, List.filterMap_map, List.map_filterMap]
    refine List.filterMap_congr fun entry hmem => ?_
    show _ = (entry.happening.step?).map (own, ·)
    rw [(h entry hmem).1]

/-- **One journal after another**, as long as the dispatch takes no step after the
others have begun. -/
theorem append (h : Flattens own low middle journal deeds blocks)
    (h' : Flattens own middle high journal' deeds' blocks') (hown : own ≤ low)
    (hsteps : blocks = [] ∨ stepsOf deeds' = []) :
    Flattens own low high (journal ++ journal') (deeds ++ deeds') (blocks ++ blocks') := by
  have hle := h.le
  have hle' := h'.le
  refine ⟨Nat.le_trans hle hle', ?_, ?_, ?_, ?_, ?_, ?_⟩
  · intro entry hmem
    obtain hmem | hmem := List.mem_append.mp hmem
    · exact (h.within entry hmem).imp_right fun hwithin => by omega
    · exact (h'.within entry hmem).imp_right fun hwithin => by omega
  · have hcount : high - low = (middle - low) + (high - middle) := by omega
    have hfirst : middle + 1 = low + 1 + (middle - low) := by omega
    rw [List.map_append, h.numbers, h'.numbers, hcount, ← List.range'_append_1, ← hfirst]
  · rw [Journal.headers_append, h.headers, h'.headers, List.map_append]
  · intro block hmem
    rw [Journal.deeds_append]
    obtain hmem | hmem := List.mem_append.mp hmem
    · -- what comes later belongs to the dispatch itself or to later blocks
      have hnumber := h.number_mem hmem
      rw [h.others block hmem, Journal.deeds_eq_nil, List.append_nil]
      intro entry hentry
      obtain hentry | hentry := h'.within entry hentry <;> omega
    · -- what came before belongs to the dispatch itself or to earlier blocks
      have hnumber := h'.number_mem hmem
      rw [h'.others block hmem, Journal.deeds_eq_nil, List.nil_append]
      intro entry hentry
      obtain hentry | hentry := h.within entry hentry <;> omega
  · rw [Journal.deeds_append, h.mine, h'.mine]
  · rw [Journal.taken_append, h.taken, h'.taken, List.flatMap_append]
    unfold numberedSteps
    rw [stepsOf_append, List.map_append]
    obtain rfl | hnone := hsteps
    · simp
    · simp [hnone]

/-- **A dispatch is over**, and is a block among others. -/
theorem close {occasion : Occasion} {steps : List Step} {noted : Configuration}
    (h : Flattens (low + 1) (low + 1) high journal deeds blocks) (hown : own ≤ low) :
    Flattens own low high (⟨low + 1, .began occasion steps, noted⟩ :: journal) []
      (⟨⟨low + 1, occasion, steps⟩, deeds⟩ :: blocks) := by
  have hle := h.le
  have hwithin : ∀ entry ∈ journal, low < entry.dispatch ∧ entry.dispatch ≤ high := by
    intro entry hmem
    obtain hentry | hentry := h.within entry hmem <;> omega
  refine ⟨by omega, ?_, ?_, ?_, ?_, ?_, ?_⟩
  · refine List.forall_mem_cons.mpr ⟨.inr ⟨Nat.lt_succ_self low, hle⟩, fun entry hmem => ?_⟩
    exact .inr (hwithin entry hmem)
  · have hcount : high - low = high - (low + 1) + 1 := by omega
    rw [List.map_cons, h.numbers, hcount, List.range'_succ]
  · show _ :: journal.headers = _
    rw [h.headers]
    rfl
  · refine List.forall_mem_cons.mpr ⟨?_, fun block hmem => ?_⟩
    · rw [Journal.deeds_began]
      exact h.mine
    · rw [Journal.deeds_began]
      exact h.others block hmem
  · rw [Journal.deeds_began]
    refine Journal.deeds_eq_nil fun entry hmem => ?_
    have hentry := hwithin entry hmem
    omega
  · exact h.taken

end Flattens

end Statechart
