import Mathlib.Data.List.Nodup
import Statechart.Proofs.Tree.Faultless
import Statechart.Proofs.Tree.Listing
import Statechart.Tree.Walk

/-!
# What a walk lists

A walk goes from the top down and takes the children of a node in ascending order of their keys
(`Node.isTopDown_walkBelow`). So it lists what is found in the tree (`Tree.mem_walk`), in ascending
order of the paths (`Tree.pairwise_walk`), and therefore each path once (`Tree.nodup_paths_walk`).
As a path comes before every path below it (`Path.lt_of_liesBelow`), a node is listed when all
nodes around it have been (`Tree.exists_before_of_walk`).

Listing all nodes, finding the node at a path and looking it up key by key are three ways to see
one tree (`Tree.walk_enumerates`).
-/

namespace Statechart

namespace Node

theorem walkAmong_eq (path : Path) {bound : Option String} (children : KeyMap Node bound) :
    walkAmong path children
      = children.toList.flatMap fun entry => walkBelow (path.child entry.1) entry.2 := by
  induction children with
  | nil => rw [walkAmong, KeyMap.toList, List.flatMap_nil]
  | cons key above child rest ih => rw [walkAmong, ih, KeyMap.toList, List.flatMap_cons]

/-- **A walk goes from the top down**, and takes the children in the order of their keys. -/
theorem isTopDown_walkBelow : IsTopDown walkBelow fun node => node.children.toList where
  eq_cons path node := by
    obtain ⟨id, initial, children, transitions, entry, exit⟩ := node
    rw [walkBelow, walkAmong_eq]
  mem_order_iff _ _ _ := KeyMap.mem_toList_iff

end Node

namespace Tree

variable {tree : Tree} {path : Path} {node : Node}

/-- **A walk lists every node with its path**, and nothing else. -/
theorem mem_walk : (path, node) ∈ tree.walk ↔ tree.get? path = some node :=
  Node.isTopDown_walkBelow.mem_root_iff

/-- **The paths of a walk are ascending.** -/
theorem pairwise_walk (tree : Tree) :
    tree.walk.Pairwise fun earlier later => earlier.1 < later.1 :=
  Node.isTopDown_walkBelow.pairwise
    (fun node => List.pairwise_map.mp node.children.pairwise_keys) .root tree.root

/-- **No path is listed twice.** -/
theorem nodup_paths_walk (tree : Tree) : (tree.walk.map Prod.fst).Nodup :=
  List.pairwise_map.mpr
    (tree.pairwise_walk.imp fun {earlier later} hlt (heq : earlier.1 = later.1) =>
      later.1.lt_irrefl (heq ▸ hlt))

/-- **A node is listed after all nodes around it.** -/
theorem exists_before_of_walk {before after : List (Path × Node)} {outer : Path}
    (hwalk : tree.walk = before ++ (path, node) :: after) (houter : path.LiesBelow outer) :
    ∃ around, (outer, around) ∈ before := by
  have hnode : tree.HasNode path := ⟨node, mem_walk.mp (by simp [hwalk])⟩
  obtain ⟨around, haround⟩ := hnode.of_startsWith houter.1
  refine ⟨around, ?_⟩
  have hmem := mem_walk.mpr haround
  rw [hwalk, List.mem_append, List.mem_cons] at hmem
  obtain hbefore | heq | hafter := hmem
  · exact hbefore
  · exact absurd (Prod.mk.inj heq).1.symm houter.2
  · -- what is listed later has a greater path
    have hsorted := tree.pairwise_walk
    rw [hwalk] at hsorted
    have hlt := (List.pairwise_cons.mp (List.pairwise_append.mp hsorted).2.1).1 _ hafter
    exact absurd (Path.lt_of_liesBelow houter) (Path.lt_asymm hlt)

/-- **A walk, finding a node and looking it up describe one tree.** Emptying a stack with the root
on it makes the list of a walk, and no other. Its paths are ascending, so each node is listed once,
and it is listed after all nodes around it. Listed are the nodes that are found under their paths,
and these are the ones that are looked up key by key. A path where no node is found is refused with
the first path on the way where there is none. -/
theorem walk_enumerates (tree : Tree) :
    (∀ listed, Node.Unstacks (fun node => node.children.toList) [(.root, tree.root)] listed
        ↔ listed = tree.walk)
      ∧ (tree.walk.map Prod.fst).Pairwise (· < ·)
      ∧ (tree.walk.map Prod.fst).Nodup
      ∧ (∀ before path node after, tree.walk = before ++ (path, node) :: after →
          ∀ outer, path.LiesBelow outer → ∃ around, (outer, around) ∈ before)
      ∧ (∀ path node, (path, node) ∈ tree.walk ↔ tree.get? path = some node)
      ∧ (∀ path node, tree.resolve path = .ok node ↔ tree.get? path = some node)
      ∧ ∀ path, tree.get? path = none → ∃ missing, tree.IsFirstMissing path missing
          ∧ tree.resolve path = .error (.unknownState missing.dotted) := by
  refine ⟨fun listed => ?_, List.pairwise_map.mpr tree.pairwise_walk, tree.nodup_paths_walk,
    fun before path node after hwalk outer => exists_before_of_walk hwalk, fun _ _ => mem_walk,
    fun _ _ => resolve_eq_ok_iff, fun path hnone => ?_⟩
  · rw [Node.isTopDown_walkBelow.unstacks_iff, List.flatMap_singleton]
    rfl
  · refine resolve_eq_error ?_
    rintro ⟨node, hnode⟩
    exact nomatch hnone.symm.trans hnode

/-- A shelf with one part next to another that is divided once more. -/
def shelf : Tree where
  root :=
    { Node.leaf "shelf" with
      initial := some "a!"
      children := .ofList [
        ("a", { Node.leaf "a" with initial := some "x", children := .ofList [("x", .leaf "")] }),
        ("a!", .leaf "")] }
  faultless := by rfl

/-- What is in the divided part comes before the part next to it, although their dotted texts are
ordered the other way round. Where there is nothing, the first gap is named. -/
theorem walk_enumerates_shelf : ∃ missing,
    shelf.walk.map (fun visit => visit.1.dotted) = ["", "a", "a.x", "a!"]
      ∧ "a!" < "a.x"
      ∧ (∃ around, ((⟨["a"]⟩ : Path), around) ∈ shelf.walk.take 2)
      ∧ shelf.IsFirstMissing ⟨["a", "y", "z"]⟩ missing
      ∧ shelf.resolve ⟨["a", "y", "z"]⟩ = .error (.unknownState missing.dotted)
      ∧ missing.dotted = "a.y" := by
  obtain ⟨-, -, -, hafter, -, -, hmissing⟩ := walk_enumerates shelf
  obtain ⟨missing, hfirst, herror⟩ := hmissing ⟨["a", "y", "z"]⟩ rfl
  have hsplit : shelf.walk = shelf.walk.take 2 ++ (⟨["a", "x"]⟩, .leaf "") :: shelf.walk.drop 3 :=
    rfl
  have htext : shelf.resolve ⟨["a", "y", "z"]⟩ = .error (.unknownState "a.y") := rfl
  have hdotted := MachineError.unknownState.inj (Except.error.inj (herror.symm.trans htext))
  exact ⟨missing, rfl, by decide, hafter _ _ _ _ hsplit ⟨["a"]⟩ ⟨rfl, by decide⟩, hfirst, herror,
    hdotted⟩

end Tree

end Statechart
