import Statechart.Proofs.Tree.Transition

/-!
# Which nodes a transition exits and enters

A transition is computed with lengths: the domain is what the active path and the
new leaf share, cut to be shorter than the target, and what is longer than the
domain is exited on the one side and entered on the other. What this comes to is
said without lengths (`Transition.IsExact`): a node is left alone exactly if it
lies around the active path, around the new leaf and properly around the target.

Everything follows from one description of the domain
(`Tree.startsWith_domainOf_iff`): the nodes at or above it are those which are
left alone. The paths around a path form a chain, so being longer than the domain
and not lying around it are the same thing.
-/

namespace Statechart

/-- **The nodes to exit and to enter are the right ones**, seen from the active
path. -/
structure Transition.IsExact (transition : Transition) (current : Path) : Prop where
  /-- The nodes to exit are strictly shortening: the innermost comes first. -/
  exits_shorten : transition.exits.Pairwise fun inner outer => outer.length < inner.length
  /-- What is exited is the active path and what lies around it, but for the root and for
  what lies properly around the target. -/
  mem_exits : ∀ path, path ∈ transition.exits
    ↔ path ≠ .root ∧ current.startsWith path = true ∧ ¬ transition.target.LiesBelow path
  /-- The nodes to enter are strictly lengthening: the innermost comes last. -/
  entries_lengthen : transition.entries.Pairwise fun outer inner => outer.length < inner.length
  /-- The last node to enter, and so there is one, is the new leaf. -/
  last_entry : transition.entries.getLast? = some transition.leaf
  /-- What is entered is the new leaf and what lies around it, but for the root and for what
  lies around the active path and properly around the target. -/
  mem_entries : ∀ path, path ∈ transition.entries
    ↔ path ≠ .root ∧ transition.leaf.startsWith path = true
      ∧ ¬ (current.startsWith path = true ∧ transition.target.LiesBelow path)
  /-- The domain lies around the active path and the new leaf, and properly around the
  target. -/
  domain_around : current.startsWith transition.domain = true
    ∧ transition.leaf.startsWith transition.domain = true
    ∧ transition.target.LiesBelow transition.domain
  /-- It is the longest path that does. -/
  domain_longest : ∀ path, current.startsWith path = true →
    transition.leaf.startsWith path = true → transition.target.LiesBelow path →
      path.length ≤ transition.domain.length
  /-- Exiting the one leads from the active path to the domain. -/
  exits_lead : Replay (some current) (transition.exits.map (⟨.exit, ·⟩)) (some transition.domain)
  /-- Entering the other leads from there to the new leaf. -/
  entries_lead :
    Replay (some transition.domain) (transition.entries.map (⟨.entry, ·⟩)) (some transition.leaf)
  /-- A target that is active is exited and entered. -/
  target_anew : current.startsWith transition.target = true →
    transition.target ∈ transition.exits ∧ transition.target ∈ transition.entries

namespace Tree

variable {tree : Tree} {current target leaf path : Path} {event : String}

/-- **The domain lies around exactly the nodes that are left alone**: those around
the active path, around the new leaf, and properly around the target. -/
theorem startsWith_domainOf_iff (hroot : target.isRoot = false)
    (hbelow : leaf.startsWith target = true) :
    (domainOf current target leaf).startsWith path = true
      ↔ current.startsWith path = true ∧ leaf.startsWith path = true ∧ target.LiesBelow path := by
  have hlt : (domainOf current target leaf).length < target.length := length_domainOf_lt hroot
  constructor
  · intro h
    have hleaf := Path.startsWith_trans (startsWith_domainOf_right current target leaf) h
    have hshorter := Nat.lt_of_le_of_lt (Path.length_le_of_startsWith h) hlt
    refine ⟨Path.startsWith_trans (startsWith_domainOf_left current target leaf) h, hleaf, ?_⟩
    have htarget := (Path.startsWith_iff_length_le hleaf hbelow).mpr (Nat.le_of_lt hshorter)
    exact (Path.liesBelow_iff_length_lt htarget).mpr hshorter
  · rintro ⟨hcurrent, hleaf, htarget⟩
    have hcommon : (current.commonPrefix leaf).startsWith path = true :=
      Path.startsWith_commonPrefix_iff.mpr ⟨hcurrent, hleaf⟩
    have hle := Path.length_le_of_startsWith hcommon
    have hshorter := (Path.liesBelow_iff_length_lt htarget.1).mp htarget
    rw [domainOf, Path.startsWith_truncated_iff]
    exact ⟨hcommon, by omega⟩

/-- **How a transition comes about**: there is a handler, its target is not the root and has
a leaf at or below it, and the rest is computed from these. -/
theorem exists_handler_of_transition {transition : Transition}
    (h : tree.transition current event = .ok transition) :
    ∃ source handler leaf, tree.handler? current event = some (source, handler)
      ∧ (handler.resolveFrom source).isRoot = false
      ∧ tree.leafOf (handler.resolveFrom source) = .ok leaf
      ∧ leaf.startsWith (handler.resolveFrom source) = true
      ∧ transition = {
        event, source, target := handler.resolveFrom source, leaf
        domain := domainOf current (handler.resolveFrom source) leaf
        exits := current.ancestors.takeWhile fun path =>
          (domainOf current (handler.resolveFrom source) leaf).length < path.length
        entries :=
          leaf.lineage.drop (domainOf current (handler.resolveFrom source) leaf).length } := by
  have hcurrent := hasNode_of_transition h
  obtain ⟨start, hstart⟩ := hcurrent
  cases hhandler : tree.handler? current event with
  | none =>
    rw [transition_eq_error ⟨start, hstart⟩ (handler?_eq_none_iff.mp hhandler)] at h
    exact nomatch h
  | some found =>
    obtain ⟨source, handler⟩ := found
    obtain ⟨node, -, hnode, htarget⟩ := handler?_eq_some hhandler
    obtain ⟨hroot, haim⟩ := target_hasNode hnode htarget
    obtain ⟨leaf, hleafOf, hbelow, -⟩ := leafOf_eq_ok haim
    refine ⟨source, handler, leaf, rfl, hroot, hleafOf, hbelow, ?_⟩
    rw [transition_eq_of_handler? hstart hhandler hroot hleafOf] at h
    exact (Except.ok.inj h).symm

/-- What lies around the active path or the new leaf is longer than the domain exactly if it is
not left alone. -/
theorem length_domainOf_lt_iff (hroot : target.isRoot = false)
    (hbelow : leaf.startsWith target = true)
    (h : current.startsWith path = true ∨ leaf.startsWith path = true) :
    (domainOf current target leaf).length < path.length
      ↔ path ≠ .root
        ∧ ¬ (current.startsWith path = true ∧ leaf.startsWith path = true
          ∧ target.LiesBelow path) := by
  have hchain : (domainOf current target leaf).startsWith path = true
      ↔ path.length ≤ (domainOf current target leaf).length := by
    obtain hcurrent | hleaf := h
    · exact Path.startsWith_iff_length_le hcurrent (startsWith_domainOf_left current target leaf)
    · exact Path.startsWith_iff_length_le hleaf (startsWith_domainOf_right current target leaf)
  rw [← startsWith_domainOf_iff hroot hbelow, hchain, Nat.not_le]
  refine ⟨fun hlt => ⟨?_, hlt⟩, And.right⟩
  rintro rfl
  exact Nat.not_lt_zero _ hlt

/-- The nodes that are longer than the domain, of those around the active path. -/
theorem mem_exits_iff (hroot : target.isRoot = false) (hbelow : leaf.startsWith target = true) :
    path ∈ current.ancestors.takeWhile
        (fun path => (domainOf current target leaf).length < path.length)
      ↔ path ≠ .root ∧ current.startsWith path = true ∧ ¬ target.LiesBelow path := by
  rw [Path.mem_takeWhile_ancestors]
  constructor
  · rintro ⟨hcurrent, hlt⟩
    obtain ⟨hne, hnot⟩ := (length_domainOf_lt_iff hroot hbelow (Or.inl hcurrent)).mp hlt
    -- what lies around the target lies around the leaf as well
    exact ⟨hne, hcurrent, fun htarget =>
      hnot ⟨hcurrent, Path.startsWith_trans hbelow htarget.1, htarget⟩⟩
  · rintro ⟨hne, hcurrent, hnot⟩
    refine ⟨hcurrent, (length_domainOf_lt_iff hroot hbelow (Or.inl hcurrent)).mpr ⟨hne, ?_⟩⟩
    exact fun h => hnot h.2.2

/-- The nodes that are longer than the domain, of those around the new leaf. -/
theorem mem_entries_iff (hroot : target.isRoot = false) (hbelow : leaf.startsWith target = true) :
    path ∈ leaf.lineage.drop (domainOf current target leaf).length
      ↔ path ≠ .root ∧ leaf.startsWith path = true
        ∧ ¬ (current.startsWith path = true ∧ target.LiesBelow path) := by
  rw [Path.mem_drop_lineage]
  constructor
  · rintro ⟨hleaf, hlt⟩
    obtain ⟨hne, hnot⟩ := (length_domainOf_lt_iff hroot hbelow (Or.inr hleaf)).mp hlt
    exact ⟨hne, hleaf, fun ⟨hcurrent, htarget⟩ => hnot ⟨hcurrent, hleaf, htarget⟩⟩
  · rintro ⟨hne, hleaf, hnot⟩
    refine ⟨hleaf, (length_domainOf_lt_iff hroot hbelow (Or.inr hleaf)).mpr ⟨hne, ?_⟩⟩
    exact fun ⟨hcurrent, _, htarget⟩ => hnot ⟨hcurrent, htarget⟩

/-- The end of a lineage ends with the path itself. -/
theorem getLast?_drop_lineage {depth : Nat} (h : depth < leaf.length) :
    (leaf.lineage.drop depth).getLast? = some leaf := by
  cases leaf using Path.induction with
  | root => exact absurd h (Nat.not_lt_zero depth)
  | child outer id =>
    rw [Path.length_child] at h
    have hle : depth ≤ outer.lineage.length := by
      rw [Path.length_lineage]
      exact Nat.le_of_lt_succ h
    rw [Path.lineage_child, List.drop_append_of_le_length hle, List.getLast?_concat]

/-- **A transition exits and enters exactly the right nodes**, whatever path of the tree is
active: a leaf, a compound node or the root. -/
theorem transition_isExact {transition : Transition}
    (h : tree.transition current event = .ok transition) : transition.IsExact current := by
  obtain ⟨source, handler, leaf, -, hroot, -, hbelow, rfl⟩ := exists_handler_of_transition h
  generalize handler.resolveFrom source = target at hroot hbelow
  have hlonger : (domainOf current target leaf).length < leaf.length :=
    Nat.lt_of_lt_of_le (length_domainOf_lt hroot) (Path.length_le_of_startsWith hbelow)
  have hleft := startsWith_domainOf_left current target leaf
  have hright := startsWith_domainOf_right current target leaf
  refine {
    exits_shorten := current.pairwise_ancestors.sublist (List.takeWhile_sublist _)
    mem_exits := fun path => mem_exits_iff hroot hbelow
    entries_lengthen := leaf.pairwise_lineage.sublist (List.drop_sublist _ _)
    last_entry := getLast?_drop_lineage hlonger
    mem_entries := fun path => mem_entries_iff hroot hbelow
    domain_around := (startsWith_domainOf_iff hroot hbelow).mp (Path.startsWith_self _)
    domain_longest := fun path hcurrent hleaf htarget => ?_
    exits_lead := replay_exits hleft
    entries_lead := replay_entries hright
    target_anew := fun hactive => ?_ }
  · exact Path.length_le_of_startsWith
      ((startsWith_domainOf_iff hroot hbelow).mpr ⟨hcurrent, hleaf, htarget⟩)
  · -- the target does not lie properly around itself
    have hne : target ≠ .root := fun heq => by
      rw [heq, Path.isRoot_root] at hroot
      exact Bool.noConfusion hroot
    exact ⟨(mem_exits_iff hroot hbelow).mpr ⟨hne, hactive, fun hself => hself.2 rfl⟩,
      (mem_entries_iff hroot hbelow).mpr ⟨hne, hbelow, fun hself => hself.2.2 rfl⟩⟩

/-! ## A door

A tree to look at: a door that is shut or open, and if it is open, ajar or wide. Whoever
pushes an open door finds it ajar afterwards, even if it was wide. -/

/-- The states of the door. -/
def door : Tree where
  root :=
    { Node.leaf "door" with
      initial := some "shut"
      children := .ofList [
        ("open",
          { Node.leaf "open" with
            initial := some "ajar"
            children := .ofList [
              ("ajar",
                { Node.leaf "ajar" with transitions := .ofList [("pull", .sibling "wide")] }),
              ("wide", .leaf "")]
            transitions := .ofList [("push", .absolute ⟨["open"]⟩)] }),
        ("shut", { Node.leaf "shut" with transitions := .ofList [("push", .sibling "open")] })] }
  faultless := by rfl

/-- A door that is wide open is exited as a whole when it is pushed, and is entered anew,
because it is what the push is aimed at. -/
theorem transition_isExact_door : ∃ transition : Transition,
    door.transition ⟨["open", "wide"]⟩ "push" = .ok transition
      ∧ transition.exits = [⟨["open", "wide"]⟩, ⟨["open"]⟩]
      ∧ transition.entries = [⟨["open"]⟩, ⟨["open", "ajar"]⟩]
      ∧ transition.IsExact ⟨["open", "wide"]⟩ :=
  have h : door.transition ⟨["open", "wide"]⟩ "push" = .ok {
      event := "push", source := ⟨["open"]⟩, target := ⟨["open"]⟩, leaf := ⟨["open", "ajar"]⟩
      domain := .root
      exits := [⟨["open", "wide"]⟩, ⟨["open"]⟩]
      entries := [⟨["open"]⟩, ⟨["open", "ajar"]⟩] } := by rfl
  ⟨_, h, rfl, rfl, transition_isExact h⟩

end Tree

end Statechart
