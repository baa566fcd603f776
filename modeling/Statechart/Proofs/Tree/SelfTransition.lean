import Statechart.Proofs.Tree.Domain

/-!
# Transitions that come back

A transition that leads back to the active path exits some nodes and enters the same nodes
again. `Transition.isSelfTransition` does not look at the active path at all: it compares the
first node that is exited with the new leaf, and counts. That is enough, because the first node
that is exited is the active path if any is (`Tree.eq_of_head?_exits`), and the last that is
entered is the new leaf. So if the nodes are entered in the reverse order of their exits, both
are the same path; and if they are the same path, what is longer than the domain is the same on
both sides (`Path.takeWhile_ancestors`).
-/

namespace Statechart

namespace Tree

variable {tree : Tree} {current path : Path} {event : String} {transition : Transition}

/-- **Exiting begins at the active path.** -/
theorem eq_of_head?_exits (h : tree.transition current event = .ok transition)
    (hhead : transition.exits.head? = some path) : path = current := by
  obtain ⟨source, handler, leaf, -, -, -, -, rfl⟩ := exists_handler_of_transition h
  dsimp only at hhead
  rw [List.head?_takeWhile, Path.head?_ancestors, Option.filter_eq_some_iff] at hhead
  exact (Option.some.inj hhead.1).symm

/-- **Entering ends at the new leaf.** -/
theorem getLast?_entries (h : tree.transition current event = .ok transition) :
    transition.entries.getLast? = some transition.leaf := by
  obtain ⟨source, handler, leaf, -, hroot, -, hbelow, rfl⟩ := exists_handler_of_transition h
  exact getLast?_drop_lineage
    (Nat.lt_of_lt_of_le (length_domainOf_lt hroot) (Path.length_le_of_startsWith hbelow))

/-- A transition back to the active path enters what it has exited, the other way round. -/
theorem entries_eq_reverse_exits (h : tree.transition current event = .ok transition)
    (hleaf : transition.leaf = current) : transition.entries = transition.exits.reverse := by
  obtain ⟨source, handler, leaf, -, -, -, -, rfl⟩ := exists_handler_of_transition h
  dsimp only at hleaf ⊢
  rw [hleaf, Path.takeWhile_ancestors, List.reverse_reverse]

/-- What enters the nodes that it has exited, the other way round, exits the new leaf first. -/
theorem head?_exits_of_entries_eq (h : tree.transition current event = .ok transition)
    (hentries : transition.entries = transition.exits.reverse) :
    transition.exits.head? = some transition.leaf := by
  rw [← getLast?_entries h, hentries, List.getLast?_reverse]

/-- **Self transitions are recognised** by the first node that is exited and the numbers of
nodes. Whatever path of the tree is active, what is taken for a self transition is what leads
back to the active path, and it exits this path first and enters all that it has exited, the
other way round. Nothing else enters what it has exited, the other way round. -/
theorem isSelfTransition_isExact (h : tree.transition current event = .ok transition) :
    (transition.isSelfTransition = true ↔ transition.leaf = current)
      ∧ (transition.isSelfTransition = true → transition.exits ≠ []
        ∧ transition.exits.head? = some current
        ∧ transition.entries = transition.exits.reverse)
      ∧ (transition.isSelfTransition = false →
        transition.entries ≠ transition.exits.reverse) := by
  have hback : transition.isSelfTransition = true → transition.leaf = current := by
    intro hself
    unfold Transition.isSelfTransition at hself
    rw [Bool.and_eq_true, beq_iff_eq] at hself
    exact eq_of_head?_exits h hself.1
  have hself : transition.entries = transition.exits.reverse →
      transition.isSelfTransition = true := by
    intro hentries
    unfold Transition.isSelfTransition
    rw [head?_exits_of_entries_eq h hentries, hentries, List.length_reverse, beq_self_eq_true,
      beq_self_eq_true]
    rfl
  refine ⟨⟨hback, fun hleaf => hself (entries_eq_reverse_exits h hleaf)⟩, fun htrue => ?_,
    fun hfalse hentries => Bool.false_ne_true (hfalse.symm.trans (hself hentries))⟩
  have hleaf := hback htrue
  have hentries := entries_eq_reverse_exits h hleaf
  have hhead := head?_exits_of_entries_eq h hentries
  refine ⟨?_, hleaf ▸ hhead, hentries⟩
  intro hnil
  rw [hnil] at hhead
  exact nomatch hhead

/-- A door that is ajar comes back to where it is when it is pushed. One that is wide open does
not, although it enters as many nodes as it exits, and neither does one of which no more is
active than that it is open. -/
theorem isSelfTransition_isExact_door : ∃ ajar wide half : Transition,
    door.transition ⟨["open", "ajar"]⟩ "push" = .ok ajar
      ∧ ajar.isSelfTransition = true ∧ ajar.entries = ajar.exits.reverse
      ∧ door.transition ⟨["open", "wide"]⟩ "push" = .ok wide
      ∧ wide.exits.length = wide.entries.length ∧ wide.isSelfTransition = false
      ∧ wide.entries ≠ wide.exits.reverse
      ∧ door.transition ⟨["open"]⟩ "push" = .ok half
      ∧ half.exits = [⟨["open"]⟩] ∧ half.isSelfTransition = false := by
  have hajar : door.transition ⟨["open", "ajar"]⟩ "push" = .ok {
      event := "push", source := ⟨["open"]⟩, target := ⟨["open"]⟩, leaf := ⟨["open", "ajar"]⟩
      domain := .root
      exits := [⟨["open", "ajar"]⟩, ⟨["open"]⟩]
      entries := [⟨["open"]⟩, ⟨["open", "ajar"]⟩] } := by rfl
  have hwide : door.transition ⟨["open", "wide"]⟩ "push" = .ok {
      event := "push", source := ⟨["open"]⟩, target := ⟨["open"]⟩, leaf := ⟨["open", "ajar"]⟩
      domain := .root
      exits := [⟨["open", "wide"]⟩, ⟨["open"]⟩]
      entries := [⟨["open"]⟩, ⟨["open", "ajar"]⟩] } := by rfl
  have hhalf : door.transition ⟨["open"]⟩ "push" = .ok {
      event := "push", source := ⟨["open"]⟩, target := ⟨["open"]⟩, leaf := ⟨["open", "ajar"]⟩
      domain := .root
      exits := [⟨["open"]⟩]
      entries := [⟨["open"]⟩, ⟨["open", "ajar"]⟩] } := by rfl
  obtain ⟨hback, hmirrors, -⟩ := isSelfTransition_isExact hajar
  obtain ⟨haway, -, hother⟩ := isSelfTransition_isExact hwide
  have hfalse := Bool.eq_false_iff.mpr (mt haway.mp (by decide))
  have hfalse' := Bool.eq_false_iff.mpr (mt (isSelfTransition_isExact hhalf).1.mp (by decide))
  exact ⟨_, _, _, hajar, hback.mpr rfl, (hmirrors (hback.mpr rfl)).2.2, hwide, rfl, hfalse,
    hother hfalse, hhalf, rfl, hfalse'⟩

end Tree

end Statechart
