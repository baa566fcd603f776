import Statechart.Machine.Dispatch

/-!
# Reading a journal

The journal of a call is one list, whatever dispatches the call has set off. Here
it is read in two ways: as the steps that were taken, and dispatch by dispatch.

Read dispatch by dispatch, a journal is a list of *blocks* (`Journal.blocks`). A
block is a dispatch with what it was to do and with all that it did itself, which
leaves out whatever the dispatches did that its actions set off.
-/

namespace Statechart

variable {L : Type}

namespace Happening

/-- The step that is taken, if one is. -/
def step? : Happening L → Option Step
  | .took step => some step
  | _ => none

/-- Whether a dispatch begins. -/
def isBeginning : Happening L → Bool
  | .began _ _ => true
  | _ => false

end Happening

/-- The steps among the deeds of a dispatch. -/
def stepsOf (deeds : List (Happening L)) : List Step := deeds.filterMap Happening.step?

/-- The steps among the deeds of a dispatch, with its number. -/
def numberedSteps (number : Nat) (deeds : List (Happening L)) : List (Nat × Step) :=
  (stepsOf deeds).map (number, ·)

@[simp] theorem stepsOf_nil : stepsOf ([] : List (Happening L)) = [] := rfl

@[simp] theorem stepsOf_took (step : Step) (deeds : List (Happening L)) :
    stepsOf (.took step :: deeds) = step :: stepsOf deeds := rfl

@[simp] theorem stepsOf_ran (name : String) (scope : Scope) (deeds : List (Happening L)) :
    stepsOf (.ran name scope :: deeds) = stepsOf deeds := rfl

@[simp] theorem stepsOf_append (deeds deeds' : List (Happening L)) :
    stepsOf (deeds ++ deeds') = stepsOf deeds ++ stepsOf deeds' :=
  List.filterMap_append

/-- **What a dispatch was to do**, as it is noted when it begins. -/
structure Header where
  /-- Which dispatch it is. -/
  number : Nat
  /-- What it is about. -/
  occasion : Occasion
  /-- The steps it is to take. -/
  steps : List Step

/-- **A dispatch in a journal.** -/
structure Block (L : Type) extends Header where
  /-- What it did once it had begun. -/
  deeds : List (Happening L)

/-- The path that is active once some steps have been taken. -/
def arrivalOf (active : Option Path) : List Step → Option Path
  | [] => active
  | step :: steps => arrivalOf (some step.arrival) steps

namespace Block

/-- The steps that a dispatch took. -/
def taken (block : Block L) : List Step := stepsOf block.deeds

/-- The steps that a dispatch took, with its number. -/
def numbered (block : Block L) : List (Nat × Step) := numberedSteps block.number block.deeds

/-- Where a dispatch began; nowhere if it is a start. -/
def origin (block : Block L) : Option Path := block.occasion.departure.map Departure.value

/-- **Where a dispatch stopped**: where its last step arrived. -/
def stop (block : Block L) : Option Path := arrivalOf block.origin block.taken

end Block

namespace Journal

/-- **The steps in a journal**, in order. -/
def steps (journal : Journal L) : List Step := journal.filterMap (·.happening.step?)

/-- The steps in a journal with the dispatches that took them, in order. -/
def taken (journal : Journal L) : List (Nat × Step) :=
  journal.filterMap fun entry => entry.happening.step?.map (entry.dispatch, ·)

/-- What a dispatch did once it had begun. -/
def deeds (journal : Journal L) (number : Nat) : List (Happening L) :=
  (journal.filter fun entry => entry.dispatch == number && !entry.happening.isBeginning).map
    (·.happening)

/-- The dispatches that begin, in order. -/
def headers (journal : Journal L) : List Header :=
  journal.filterMap fun entry =>
    match entry.happening with
    | .began occasion steps => some ⟨entry.dispatch, occasion, steps⟩
    | _ => none

/-- **A journal, dispatch by dispatch**, in the order in which they begin. -/
def blocks (journal : Journal L) : List (Block L) :=
  journal.headers.map fun header => ⟨header, journal.deeds header.number⟩

variable (journal journal' : Journal L) {number : Nat}

@[simp] theorem taken_append :
    taken (journal ++ journal') = taken journal ++ taken journal' :=
  List.filterMap_append

@[simp] theorem headers_append :
    headers (journal ++ journal') = headers journal ++ headers journal' :=
  List.filterMap_append

@[simp] theorem deeds_append :
    deeds (journal ++ journal') number = deeds journal number ++ deeds journal' number := by
  unfold deeds
  rw [List.filter_append, List.map_append]

/-- That a dispatch begins is not one of its deeds. -/
@[simp] theorem deeds_began {begun : Nat} {occasion : Occasion} {steps : List Step}
    {noted : Configuration} :
    deeds (⟨begun, .began occasion steps, noted⟩ :: journal) number = deeds journal number := by
  unfold deeds
  rw [List.filter_cons_of_neg (by simp [Happening.isBeginning])]

/-- A dispatch has done nothing in a journal of others. -/
theorem deeds_eq_nil {journal : Journal L} (h : ∀ entry ∈ journal, entry.dispatch ≠ number) :
    deeds journal number = [] := by
  unfold deeds
  rw [List.map_eq_nil_iff, List.filter_eq_nil_iff]
  intro entry hmem
  simp [h entry hmem]

/-- **A journal is its blocks** if it has their headers and their deeds. -/
theorem blocks_eq {journal : Journal L} {blocks : List (Block L)}
    (hheaders : journal.headers = blocks.map (·.toHeader))
    (hdeeds : ∀ block ∈ blocks, journal.deeds block.number = block.deeds) :
    journal.blocks = blocks := by
  unfold Journal.blocks
  rw [hheaders, List.map_map]
  refine (List.map_congr_left fun block hmem => ?_).trans (List.map_id blocks)
  show Block.mk block.toHeader (journal.deeds block.number) = block
  rw [hdeeds block hmem]

end Journal

end Statechart
