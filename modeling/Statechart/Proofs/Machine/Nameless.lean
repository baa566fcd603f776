import Statechart.Proofs.Machine.Restart
import Statechart.Proofs.Tree.Nameless

/-!
# Ids are only labels to a machine

A machine asks its tree for leaves, transitions and handlers, never for the ids of nodes. Given
a tree that answers alike, it takes the same course (`Course.withTree`), with the same
journal to the last entry, and so its runs are the same as well (`Run.withTree`).

Two machines that are made of roots that are the same but for ids are the same but for
ids themselves, so one of them is the other, given another tree. A machine has only one
run with given calls, so all that can be seen of any run of one is what is seen of any run of
the other (`Tree.ids_never_matter`).
-/

namespace Statechart

variable {C L : Type}

open Machine (Outcome)

/-- Trees that answer alike cannot be told apart by a machine at work. -/
theorem Tree.AnswersAs.alike {tree other : Tree} (h : tree.AnswersAs other) : tree.Alike other :=
  ⟨h.leafOf .root, h.transition, h.handler?, h.nextEvents⟩

/-! ## Another tree -/

namespace Machine

/-- **The same machine with another tree.** -/
def withTree (machine : Machine C L) (tree : Tree) : Machine C L := { machine with tree }

/-- The same outcome, with another tree for the machine. -/
def Outcome.withTree (outcome : Outcome C L) (tree : Tree) : Outcome C L :=
  { outcome with machine := outcome.machine.withTree tree }

/-- **The machine with no ids in its tree.** -/
def withoutIds (machine : Machine C L) : Machine C L := machine.withTree machine.tree.withoutIds

end Machine

/-- The same call, of the machine with another tree. -/
def Episode.withTree (episode : Episode C L) (tree : Tree) : Episode C L :=
  { episode with before := episode.before.withTree tree, after := episode.after.withTree tree }

/-- **A machine takes the same course with a tree that answers alike**, and nothing else is
noted on the way. -/
theorem Course.withTree {activity : Activity C} {machine : Machine C L} {outcome : Outcome C L}
    {tree : Tree} (h : Course activity machine outcome) (halike : machine.tree.Alike tree) :
    Course activity (machine.withTree tree) (outcome.withTree tree) := by
  -- what is noted names no tree, so each rule applies again with the other tree
  induction h with
  | done => exact .done
  | read _ ih => exact .read (ih halike)
  | write _ ih => exact .write (ih halike)
  | ask asked _ ihasked ihrest =>
    have hrest := asked.keeps.tree.symm ▸ halike
    exact .ask (ihasked halike) (ihrest hrest)
  | arrive => exact .arrive
  | @pass _ step _ machine outcome unbound _ ih =>
    show Course _ _ ((outcome.withTree tree).after [(machine.withTree tree).stepping step])
    exact .pass unbound (ih halike)
  | @perform occasion step _ bound machine acted outcome isBound action same _ ihaction ihrest =>
    have hrest := action.keeps.tree.symm ▸ halike
    show Course _ _ ((outcome.withTree tree).after ((machine.withTree tree).stepping step
      :: (machine.withTree tree).acting bound.name ⟨step, occasion⟩
      :: (acted.withTree tree).journal))
    exact .perform isBound (ihaction halike) same (ihrest hrest)
  | @overtaken occasion step _ bound machine acted isBound _ otherwise ihaction =>
    show Course _ _ ((acted.withTree tree).after [(machine.withTree tree).stepping step,
      (machine.withTree tree).acting bound.name ⟨step, occasion⟩])
    exact .overtaken isBound (ihaction halike) otherwise
  | unready unready => exact .unready unready
  | unhandled running active refused =>
    exact .unhandled running active ((halike.transition _ _).trans refused)
  | @dispatch _ current transition machine outcome running active ok _ ih =>
    rw [← halike.transition] at ok
    show Course _ _ ((outcome.withTree tree).after
      [(machine.withTree tree).beginning _ transition.steps])
    exact .dispatch running active ok (ih halike)
  | alreadyRunning running => exact .alreadyRunning running
  | leafless stopped refused => exact .leafless stopped (halike.leafOf_root.trans refused)
  | @start leaf machine outcome stopped ok _ ih =>
    rw [← halike.leafOf_root] at ok
    show Course _ _ ((outcome.withTree tree).after
      [(machine.withTree tree).beginning _ leaf.startSteps])
    exact .start stopped ok (ih halike)

/-- A call is answered in the same way with a tree that answers alike. -/
theorem Episode.Occurs.withTree {episode : Episode C L} {tree : Tree} (h : episode.Occurs)
    (halike : episode.before.tree.Alike tree) : (episode.withTree tree).Occurs := by
  cases h using Occurs.byCourse with
  | start _ course => exact .of_start (course.withTree halike)
  | send _ course => exact .of_send (course.withTree halike)
  | change change machine =>
    have hchange : (machine.withTree tree).change change
        = (machine.change change).withTree tree := by
      cases change <;> rfl
    unfold Episode.withTree
    rw [← hchange]
    exact .change change (machine.withTree tree)

/-- **A machine has the same runs with a tree that answers alike.** -/
theorem Run.withTree {machine last : Machine C L} {episodes : List (Episode C L)} {tree : Tree}
    (run : Run machine episodes last) (halike : machine.tree.Alike tree) :
    Run (machine.withTree tree) (episodes.map (·.withTree tree)) (last.withTree tree) := by
  induction run with
  | nil => exact .nil
  | concat run occurs ih =>
    rw [List.map_append]
    exact .concat ih (occurs.withTree (run.tree_eq.symm ▸ halike))

/-! ## The same but for ids -/

/-- **Calls that agree**: they have the same answer and the same journal, and afterwards
the machines are the same but for ids and look the same. -/
structure Episode.Agrees (episode other : Episode C L) : Prop
    extends episode.Resembles other where
  journal : other.journal = episode.journal
  withoutIds : other.after.withoutIds = episode.after.withoutIds

namespace Machine

/-- **Machines that run alike**: they return from the same calls, and the calls agree, one
by one. -/
structure RunsAs (machine other : Machine C L) : Prop where
  returns_iff : ∀ calls : List (Call C L),
    (∃ episodes last, Run machine episodes last ∧ episodes.map Episode.call = calls)
      ↔ ∃ episodes last, Run other episodes last ∧ episodes.map Episode.call = calls
  agree : ∀ episodes last others last', Run machine episodes last → Run other others last' →
    others.map Episode.call = episodes.map Episode.call →
      List.Forall₂ Episode.Agrees episodes others

variable {machine other : Machine C L}

theorem withoutIds_withTree {tree : Tree} (h : tree.withoutIds = machine.tree.withoutIds) :
    (machine.withTree tree).withoutIds = machine.withoutIds := by
  show machine.withTree tree.withoutIds = machine.withTree machine.tree.withoutIds
  rw [h]

/-- A machine that is the same but for ids is the same with another tree. -/
theorem eq_withTree (h : other.withoutIds = machine.withoutIds) :
    other = machine.withTree other.tree := by
  show other.withoutIds.withTree other.tree = machine.withoutIds.withTree other.tree
  rw [h]

/-- Machines that are the same but for ids look the same. -/
theorem resembles_withTree {tree : Tree} (h : machine.tree.Alike tree) :
    machine.Resembles (machine.withTree tree) := by
  have htwins : machine.Twins 0 (machine.withTree tree) :=
    ⟨⟨h, rfl, rfl, rfl, (Int.add_zero _).symm⟩, rfl⟩
  exact htwins.resembles

end Machine

namespace Run

variable {machine other last : Machine C L} {episodes : List (Episode C L)} {tree : Tree}

/-- **Every call of a run agrees** with the same call of the machine with a tree that is the
same but for ids. -/
theorem agrees_withTree (run : Run machine episodes last)
    (h : tree.withoutIds = machine.tree.withoutIds) :
    List.Forall₂ Episode.Agrees episodes (episodes.map (·.withTree tree)) := by
  induction run with
  | nil => exact .nil
  | @concat episodes episode run occurs ih =>
    have htree : tree.withoutIds = episode.after.tree.withoutIds := by
      rw [h, (run.concat occurs).tree_eq]
    have hlook := Machine.resembles_withTree (Tree.answersAs htree).alike
    have hagrees : episode.Agrees (episode.withTree tree) :=
      ⟨⟨rfl, rfl, rfl, hlook⟩, rfl, Machine.withoutIds_withTree htree⟩
    rw [List.map_append]
    exact List.rel_append ih (.cons hagrees .nil)

/-- A run is one of every machine that is the same but for ids, with its tree. -/
theorem of_withoutIds_eq (run : Run machine episodes last)
    (h : other.withoutIds = machine.withoutIds) :
    Run other (episodes.map (·.withTree other.tree)) (last.withTree other.tree) := by
  have hrun := run.withTree (Tree.answersAs (congrArg Machine.tree h)).alike
  rwa [← Machine.eq_withTree h] at hrun

end Run

namespace Machine

variable {machine other : Machine C L}

/-- **Machines that are the same but for ids** run alike. -/
theorem runsAs (h : other.withoutIds = machine.withoutIds) : machine.RunsAs other := by
  have hcalls (episodes : List (Episode C L)) (tree : Tree) :
      (episodes.map (·.withTree tree)).map Episode.call = episodes.map Episode.call := by
    rw [List.map_map]
    rfl
  refine ⟨fun calls => ⟨?_, ?_⟩, fun episodes last others last' run run' hsame => ?_⟩
  · rintro ⟨episodes, last, run, rfl⟩
    exact ⟨_, _, run.of_withoutIds_eq h, hcalls _ _⟩
  · rintro ⟨episodes, last, run, rfl⟩
    exact ⟨_, _, run.of_withoutIds_eq h.symm, hcalls _ _⟩
  · obtain ⟨rfl, -⟩ := (run.of_withoutIds_eq h).unique run' (hsame.trans (hcalls _ _).symm)
    exact run.agrees_withTree (congrArg Machine.tree h)

/-! ## Made of roots that are the same but for ids -/

theorem ofTree_withoutIds (tree : Tree) (context : C) (registry : Registry (Action C)) :
    (ofTree tree.withoutIds context registry : Except MachineError (Machine C L))
      = (ofTree tree context registry).map withoutIds := by
  unfold ofTree
  rw [tree.bind_withoutIds]
  cases registry.bind tree with
  | error error => rfl
  | ok bindings => rfl

theorem map_withoutIds_ofRoot (root : Node) (context : C) (registry : Registry (Action C))
    (startPath : Option String) :
    (ofRoot root context registry startPath : Except MachineError (Machine C L)).map withoutIds
      = ((Definition.tree ⟨root, startPath⟩).map Tree.withoutIds).bind
        fun tree => ofTree tree context registry := by
  rw [ofRoot_eq_ofDefinition, ofDefinition]
  cases Definition.tree ⟨root, startPath⟩ with
  | error error => rfl
  | ok tree => exact (ofTree_withoutIds tree context registry).symm

end Machine

variable {root root' : Node} {tree tree' : Tree}

/-- Roots whose trees are the same but for ids mean trees that are, wherever they start. -/
theorem Definition.map_withoutIds_tree (hids : tree'.withoutIds = tree.withoutIds)
    (ok : Tree.ofNode root = .ok tree) (ok' : Tree.ofNode root' = .ok tree')
    (startPath : Option String) :
    (Definition.tree ⟨root', startPath⟩).map Tree.withoutIds
      = (Definition.tree ⟨root, startPath⟩).map Tree.withoutIds := by
  unfold Definition.tree
  rw [ok, ok']
  cases startPath with
  | none => exact congrArg Except.ok hids
  | some start =>
    show ((Path.ofExactDotted start).bind tree'.startingAt).map _
      = ((Path.ofExactDotted start).bind tree.startingAt).map _
    cases Path.ofExactDotted start with
    | error error => rfl
    | ok path => exact (Tree.answersAs hids).startingAt path

namespace Tree

/-- **Ids never matter, only keys do.** Of two roots that are the same but for the ids of
their nodes, and that both pass the check, make trees. Whatever is asked of one tree has the
same answer as if it were asked of the other, the ids of the nodes in the answer apart. Take
any context, any actions and any start path, or none: for both roots a machine can be made, or
for neither and for the same reason. The machines run alike – they return from the same calls,
and call by call they have the same answers and journals, down to every step, action and
listener, and are the same but for ids afterwards. -/
theorem ids_never_matter (hids : root'.withoutIds = root.withoutIds)
    (ok : Tree.ofNode root = .ok tree) (ok' : Tree.ofNode root' = .ok tree') :
    tree.AnswersAs tree' ∧ ∀ {C L : Type} (context : C) (registry : Registry (Action C))
      (startPath : Option String),
        (Machine.ofRoot (L := L) root' context registry startPath).map Machine.withoutIds
            = (Machine.ofRoot root context registry startPath).map Machine.withoutIds
          ∧ ∀ machine machine' : Machine C L,
            Machine.ofRoot root context registry startPath = .ok machine →
            Machine.ofRoot root' context registry startPath = .ok machine' →
              machine.RunsAs machine' := by
  have htrees : tree'.withoutIds = tree.withoutIds := by
    rw [← ofNode_eq_ok_iff.mp ok, ← ofNode_eq_ok_iff.mp ok'] at hids
    exact withoutIds_eq_of_root hids
  refine ⟨answersAs htrees, fun {C L} context registry startPath => ?_⟩
  have hmade : (Machine.ofRoot (L := L) root' context registry startPath).map Machine.withoutIds
      = (Machine.ofRoot root context registry startPath).map Machine.withoutIds := by
    rw [Machine.map_withoutIds_ofRoot, Machine.map_withoutIds_ofRoot,
      Definition.map_withoutIds_tree htrees ok ok']
  refine ⟨hmade, fun machine machine' made made' => Machine.runsAs ?_⟩
  rw [made, made'] at hmade
  exact Except.ok.inj hmade

/-- The lamp works without the ids of its states. -/
theorem ids_never_matter_lamp : Lamp.root.withoutIds ≠ Lamp.root
    ∧ Machine.ofRoot Lamp.root.withoutIds () (Registry.empty.register "settle" Lamp.settle) none
      = .ok Lamp.machine.withoutIds
    ∧ Lamp.machine.RunsAs Lamp.machine.withoutIds
    ∧ ∃ episodes last, Run Lamp.machine.withoutIds episodes last
      ∧ episodes.map Episode.call = [.start, .send "flip"] := by
  have hne : Lamp.root.withoutIds ≠ Lamp.root :=
    fun heq => absurd (congrArg Node.id heq) (by decide)
  have hids : Lamp.root.withoutIds.withoutIds = Lamp.root.withoutIds := rfl
  have made : Machine.ofRoot Lamp.root.withoutIds ()
      (Registry.empty.register "settle" Lamp.settle) none = .ok Lamp.machine.withoutIds := rfl
  have ok : Tree.ofNode Lamp.root = .ok Lamp.machine.tree := ofNode_eq_ok_iff.mpr rfl
  have ok' : Tree.ofNode Lamp.root.withoutIds = .ok Lamp.machine.withoutIds.tree :=
    ofNode_eq_ok_iff.mpr rfl
  obtain ⟨-, halike⟩ := ids_never_matter hids ok ok'
  obtain ⟨-, hruns⟩ := halike () (Registry.empty.register "settle" Lamp.settle) none
  have hlamp := hruns Lamp.machine Lamp.machine.withoutIds rfl made
  obtain ⟨episodes, run, hcalls⟩ := Lamp.exists_run
  exact ⟨hne, made, hlamp, (hlamp.returns_iff _).mp ⟨episodes, Lamp.dim, run, hcalls⟩⟩

end Tree

end Statechart
