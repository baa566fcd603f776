import Statechart.Proofs.Tree.Descent

/-!
# Entering a node

Entering a node goes down from initial child to initial child, one turn for each, and it may stop
short of a leaf where there is no initial child to go on with (`Node.GoesDown`). It comes to an end
from every node, and in only one way (`Node.goesDown_leafBelow`, `Node.GoesDown.leafBelow_eq`); at
a leaf it does after as many turns as the leaf lies deeper (`Node.GoesDown.length_eq`).

In a tree nothing is missing on the way, so it ends at a leaf, which is the same for all nodes on
the way (`Tree.leafOf_descends`).
-/

namespace Statechart

namespace Node

/-- **The way down from the node at a path**, with the number of turns it takes and what comes of
it. -/
inductive GoesDown : Path → Node → Nat → Except MachineError Path → Prop where
  /-- A node without children is the end of the way. -/
  | arrive {path : Path} {node : Node} (hleaf : node.isLeaf = true) :
    GoesDown path node 0 (.ok path)
  /-- A node that does not say which child it enters cannot be entered. -/
  | unnamed {path : Path} {node : Node} (hleaf : node.isLeaf = false)
      (hnone : node.initial = none) :
    GoesDown path node 0 (.error (.missingInitial path.label))
  /-- Nor can one whose initial child does not exist. -/
  | absent {path : Path} {node : Node} {key : String} (hleaf : node.isLeaf = false)
      (hkey : node.initial = some key) (hnone : node.child? key = none) :
    GoesDown path node 0 (.error (.missingInitial path.label))
  /-- From any other node the way goes on at its initial child. -/
  | turn {path : Path} {node child : Node} {key : String} {turns : Nat}
      {outcome : Except MachineError Path} (hleaf : node.isLeaf = false)
      (hkey : node.initial = some key) (hchild : node.child? key = some child)
      (rest : GoesDown (path.child key) child turns outcome) :
    GoesDown path node (turns + 1) outcome

variable {path leaf : Path} {node : Node} {turns : Nat} {outcome : Except MachineError Path}

/-! ## Where the way down cannot go on -/

theorem leafThrough_of_get?_eq_none {key : String} {bound : Option String}
    {children : KeyMap Node bound} (h : children.get? key = none) :
    leafThrough path key children = .error (.missingInitial path.label) := by
  induction children with
  | nil => rw [leafThrough]
  | cons first above child rest ih =>
    rw [KeyMap.get?] at h
    rw [leafThrough]
    by_cases hkey : key = first
    · rw [if_pos hkey] at h
      exact absurd h (Option.some_ne_none child)
    · rw [if_neg hkey] at h
      rw [if_neg hkey, ih h]

theorem leafBelow_of_unnamed (hleaf : node.isLeaf = false) (hnone : node.initial = none) :
    node.leafBelow path = .error (.missingInitial path.label) := by
  rw [Tree.leafBelow_of_inner path hleaf, hnone]

theorem leafBelow_of_absent {key : String} (hleaf : node.isLeaf = false)
    (hkey : node.initial = some key) (hnone : node.child? key = none) :
    node.leafBelow path = .error (.missingInitial path.label) := by
  rw [Tree.leafBelow_of_inner path hleaf, hkey]
  exact leafThrough_of_get?_eq_none hnone

/-! ## The way down ends, and in one way -/

/-- **The way down ends** with the default leaf, or with the reason why there is none. -/
theorem goesDown_leafBelow (path : Path) (node : Node) :
    ∃ turns, GoesDown path node turns (node.leafBelow path) := by
  induction node using Node.induction generalizing path with
  | step node ih =>
    cases hleaf : node.isLeaf with
    | true =>
      rw [Tree.leafBelow_of_isLeaf path hleaf]
      exact ⟨0, .arrive hleaf⟩
    | false =>
      cases hkey : node.initial with
      | none =>
        rw [leafBelow_of_unnamed hleaf hkey]
        exact ⟨0, .unnamed hleaf hkey⟩
      | some key =>
        cases hchild : node.child? key with
        | none =>
          rw [leafBelow_of_absent hleaf hkey hchild]
          exact ⟨0, .absent hleaf hkey hchild⟩
        | some child =>
          rw [Tree.leafBelow_of_initialChild hleaf hkey hchild]
          obtain ⟨turns, hrest⟩ := ih key child hchild (path.child key)
          exact ⟨turns + 1, .turn hleaf hkey hchild hrest⟩

/-- **There is no other end.** -/
theorem GoesDown.leafBelow_eq (h : GoesDown path node turns outcome) :
    node.leafBelow path = outcome := by
  induction h with
  | arrive hleaf => exact Tree.leafBelow_of_isLeaf _ hleaf
  | unnamed hleaf hnone => exact leafBelow_of_unnamed hleaf hnone
  | absent hleaf hkey hnone => exact leafBelow_of_absent hleaf hkey hnone
  | turn hleaf hkey hchild _ ih => rw [Tree.leafBelow_of_initialChild hleaf hkey hchild, ih]

/-- **A leaf is reached** after as many turns as it lies deeper than the node. -/
theorem GoesDown.length_eq (h : GoesDown path node turns (.ok leaf)) :
    leaf.length = path.length + turns := by
  induction turns generalizing path node with
  | zero =>
    cases h with
    | arrive _ => rfl
  | succ turns ih =>
    cases h with
    | turn _ _ _ hrest =>
      rw [ih hrest, Path.length_child]
      omega

/-- Where there is a default leaf, nothing else comes of the way down, and it takes so many turns
as the leaf lies deeper. -/
theorem goesDown_iff (h : node.leafBelow path = .ok leaf) :
    GoesDown path node turns outcome ↔ outcome = .ok leaf ∧ leaf.length = path.length + turns := by
  constructor
  · intro hdown
    obtain rfl := hdown.leafBelow_eq.symm.trans h
    exact ⟨rfl, hdown.length_eq⟩
  · rintro ⟨rfl, hlength⟩
    obtain ⟨turns', hdown⟩ := goesDown_leafBelow path node
    rw [h] at hdown
    obtain rfl : turns' = turns := by
      have := hdown.length_eq
      omega
    exact hdown

end Node

namespace Tree

/-- **Entering a node ends at one leaf.** From a node of a tree the way down comes to an end, at a
leaf that is found by nothing but initial children, after as many turns as it lies deeper. No other
leaf is reached by initial children, and from every node on the way the same one is, the leaf
itself included. A path at which there is no node is refused as looking it up is refused; that an
initial child is missing is never said. -/
theorem leafOf_descends (tree : Tree) (path : Path) :
    (∀ node, tree.get? path = some node → ∃ leaf, tree.leafOf path = .ok leaf
        ∧ (∀ turns outcome, node.GoesDown path turns outcome
            ↔ outcome = .ok leaf ∧ leaf.length = path.length + turns)
        ∧ (∀ found, tree.DescendsTo path found ↔ found = leaf)
        ∧ (∀ between, leaf.startsWith between = true → between.startsWith path = true →
            tree.leafOf between = .ok leaf)
        ∧ tree.leafOf leaf = .ok leaf)
      ∧ (¬ tree.HasNode path → ∃ missing, tree.IsFirstMissing path missing
          ∧ tree.resolve path = .error (.unknownState missing.dotted)
          ∧ tree.leafOf path = .error (.unknownState missing.dotted))
      ∧ ∀ state, tree.leafOf path ≠ .error (.missingInitial state) := by
  have harrives (node : Node) (hnode : tree.get? path = some node) :
      ∃ leaf, tree.leafOf path = .ok leaf := by
    obtain ⟨leaf, hok, -⟩ := leafOf_eq_ok ⟨node, hnode⟩
    exact ⟨leaf, hok⟩
  have hrefused (hnone : ¬ tree.HasNode path) : ∃ missing, tree.IsFirstMissing path missing
      ∧ tree.resolve path = .error (.unknownState missing.dotted)
      ∧ tree.leafOf path = .error (.unknownState missing.dotted) := by
    obtain ⟨missing, hmissing, herror⟩ := resolve_eq_error hnone
    refine ⟨missing, hmissing, herror, ?_⟩
    unfold leafOf
    rw [herror]
    rfl
  refine ⟨fun node hnode => ?_, hrefused, fun state herror => ?_⟩
  · obtain ⟨leaf, hok⟩ := harrives node hnode
    have hdown := leafOf_eq_ok_iff.mp hok
    have hsame (between : Path) (hbelow : leaf.startsWith between = true)
        (haround : between.startsWith path = true) : tree.leafOf between = .ok leaf :=
      leafOf_eq_ok_iff.mpr (hdown.of_between hbelow haround)
    refine ⟨leaf, hok, fun _ _ => Node.goesDown_iff ((leafOf_eq hnode).symm.trans hok),
      fun found => ?_, hsame, hsame leaf (Path.startsWith_self leaf) hdown.below⟩
    rw [← leafOf_eq_ok_iff, hok, Except.ok.injEq, eq_comm]
  · by_cases hnode : tree.HasNode path
    · obtain ⟨node, hnode⟩ := hnode
      obtain ⟨leaf, hok⟩ := harrives node hnode
      exact nomatch hok.symm.trans herror
    · obtain ⟨missing, -, -, herror'⟩ := hrefused hnode
      exact nomatch herror'.symm.trans herror

/-- An oven that warms up gently if nothing else is said. -/
def oven : Tree where
  root :=
    { Node.leaf "oven" with
      initial := some "on"
      children := .ofList [
        ("off", .leaf "off"),
        ("on",
          { Node.leaf "on" with
            initial := some "warming"
            children := .ofList [
              ("holding", .leaf "holding"),
              ("warming",
                { Node.leaf "" with
                  initial := some "gently"
                  children := .ofList [("fully", .leaf ""), ("gently", .leaf "")] })] })] }
  faultless := by rfl

/-- Switching the oven on takes two turns to warm up gently, and nothing else does. It cannot be
made to grill. -/
theorem leafOf_descends_oven : ∃ leaf missing,
    oven.leafOf ⟨["on"]⟩ = .ok leaf ∧ leaf = ⟨["on", "warming", "gently"]⟩
      ∧ (∀ node, oven.get? ⟨["on"]⟩ = some node → node.GoesDown ⟨["on"]⟩ 2 (.ok leaf))
      ∧ ¬ oven.DescendsTo ⟨["on"]⟩ ⟨["on", "holding"]⟩
      ∧ oven.leafOf ⟨["on", "warming"]⟩ = .ok leaf
      ∧ oven.IsFirstMissing ⟨["on", "grilling", "gently"]⟩ missing ∧ missing.dotted = "on.grilling"
      ∧ oven.leafOf ⟨["on", "grilling", "gently"]⟩ = .error (.unknownState missing.dotted) := by
  obtain ⟨leaf, hok, hturns, hunique, hsame, -⟩ := (leafOf_descends oven ⟨["on"]⟩).1 _ rfl
  obtain rfl : leaf = ⟨["on", "warming", "gently"]⟩ :=
    Except.ok.inj (hok.symm.trans (by rfl))
  have hgrill : ¬ oven.HasNode ⟨["on", "grilling", "gently"]⟩ := by
    rintro ⟨node, hnode⟩
    exact nomatch hnode
  obtain ⟨missing, hmissing, -, herror⟩ :=
    (leafOf_descends oven ⟨["on", "grilling", "gently"]⟩).2.1 hgrill
  have htext : oven.leafOf ⟨["on", "grilling", "gently"]⟩ = .error (.unknownState "on.grilling") :=
    rfl
  have hdotted := MachineError.unknownState.inj (Except.error.inj (herror.symm.trans htext))
  refine ⟨_, missing, hok, rfl, fun node hnode => ?_, fun hholding => ?_,
    hsame ⟨["on", "warming"]⟩ rfl rfl, hmissing, hdotted, herror⟩
  · obtain rfl := Option.some.inj hnode
    exact (hturns 2 _).mpr ⟨rfl, rfl⟩
  · exact absurd ((hunique _).mp hholding) (by decide)

end Tree

end Statechart
