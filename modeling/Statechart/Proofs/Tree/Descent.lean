import Statechart.Proofs.Tree.Faultless

/-!
# The way down to the default leaf

Entering a node of a tree goes on with its initial child, and with the initial child of
that, until there is a node without children. Where this ends is said without following
the way (`Tree.DescendsTo`): at a leaf below the node, such that every node in between has
the next one for its initial child. `Tree.leafOf` finds such a leaf, and there is no other
(`Tree.leafOf_eq_ok_iff`).
-/

namespace Statechart

namespace Tree

variable {tree : Tree} {path leaf : Path} {node : Node}

/-- **Initial children lead from a node down to a leaf.** -/
structure DescendsTo (tree : Tree) (path leaf : Path) : Prop where
  /-- The leaf is the node itself or lies below it. -/
  below : leaf.startsWith path = true
  /-- It has no children. -/
  hasLeaf : tree.HasLeaf leaf
  /-- Every step from the node to the leaf goes to the initial child. -/
  initial : ∀ outer key, outer.startsWith path = true → leaf.startsWith (outer.child key) = true →
    ∃ node, tree.get? outer = some node ∧ node.initial = some key

/-- A node without children is where it leads. -/
theorem descendsTo_self (h : tree.get? path = some node) (hleaf : node.isLeaf = true) :
    tree.DescendsTo path path where
  below := Path.startsWith_self path
  hasLeaf := ⟨node, h, hleaf⟩
  initial outer key houter hbelow := by
    -- there is no step from the path to itself
    have hle := Path.length_le_of_startsWith houter
    have hlt := Path.length_le_of_startsWith hbelow
    rw [Path.length_child] at hlt
    exact absurd hle (Nat.not_le.mpr hlt)

/-- **A node leads where its initial child leads.** -/
theorem DescendsTo.of_initialChild {key : String} (h : tree.get? path = some node)
    (hkey : node.initial = some key) (hdown : tree.DescendsTo (path.child key) leaf) :
    tree.DescendsTo path leaf where
  below := Path.startsWith_of_child hdown.below
  hasLeaf := hdown.hasLeaf
  initial outer other houter hbelow := by
    by_cases heq : outer = path
    · -- the first step is the one to the initial child
      subst heq
      have hsame : outer.child other = outer.child key :=
        Path.eq_of_startsWith_of_length_eq hbelow hdown.below (by simp)
      exact ⟨node, h, Path.child_inj.mp hsame ▸ hkey⟩
    · -- every other step is one from there
      have hlt := (Path.liesBelow_iff_length_lt houter).mp ⟨houter, heq⟩
      rw [← Nat.succ_le_iff, Nat.succ_eq_add_one, ← Path.length_child path key] at hlt
      have hinner : outer.startsWith (path.child key) = true :=
        (Path.startsWith_iff_length_le hdown.below (Path.startsWith_of_child hbelow)).mpr hlt
      exact hdown.initial outer other hinner hbelow

theorem descendsTo_of_leafBelow (h : tree.get? path = some node)
    (hok : node.leafBelow path = .ok leaf) : tree.DescendsTo path leaf := by
  induction node using Node.induction generalizing path with
  | step node ih =>
    cases hleaf : node.isLeaf with
    | true =>
      rw [leafBelow_of_isLeaf path hleaf] at hok
      exact Except.ok.inj hok ▸ descendsTo_self h hleaf
    | false =>
      obtain ⟨key, child, hkey, hchild⟩ := exists_initialChild h hleaf
      rw [leafBelow_of_initialChild hleaf hkey hchild] at hok
      exact .of_initialChild h hkey (ih key child hchild (get?_child_of_get? h hchild) hok)

/-- **The default leaf of a node** is where initial children lead. -/
theorem descendsTo_of_leafOf (hok : tree.leafOf path = .ok leaf) : tree.DescendsTo path leaf := by
  cases hresolve : tree.resolve path with
  | error error =>
    rw [leafOf, hresolve] at hok
    exact nomatch hok
  | ok node =>
    have hnode := resolve_eq_ok_iff.mp hresolve
    exact descendsTo_of_leafBelow hnode ((leafOf_eq hnode).symm.trans hok)

/-- From every node on the way the same leaf is reached. -/
theorem DescendsTo.of_between {between : Path} (h : tree.DescendsTo path leaf)
    (hbelow : leaf.startsWith between = true) (haround : between.startsWith path = true) :
    tree.DescendsTo between leaf where
  below := hbelow
  hasLeaf := h.hasLeaf
  initial outer key houter := h.initial outer key (Path.startsWith_trans houter haround)

/-- A node that is not where it leads has an initial child on the way. -/
theorem DescendsTo.exists_initialChild (h : tree.DescendsTo path leaf) (hne : leaf ≠ path)
    (hnode : tree.get? path = some node) : ∃ key child, node.initial = some key
      ∧ node.child? key = some child ∧ tree.DescendsTo (path.child key) leaf := by
  obtain ⟨key, hbelow⟩ := Path.liesBelow_iff_exists_child.mp ⟨h.below, hne⟩
  obtain ⟨_, hsame, hkey⟩ := h.initial path key (Path.startsWith_self path) hbelow
  obtain rfl := Option.some.inj (hsame.symm.trans hnode)
  obtain ⟨child, hchild⟩ := h.hasLeaf.hasNode.of_startsWith hbelow
  rw [get?_child, hnode, Option.bind_some] at hchild
  exact ⟨key, child, hkey, hchild, h.of_between hbelow (Path.startsWith_child path key)⟩

theorem leafBelow_of_descendsTo (h : tree.get? path = some node)
    (hdown : tree.DescendsTo path leaf) : node.leafBelow path = .ok leaf := by
  induction node using Node.induction generalizing path with
  | step node ih =>
    by_cases heq : leaf = path
    · -- the way has come to its end
      subst heq
      obtain ⟨_, hsame, hleaf⟩ := hdown.hasLeaf
      obtain rfl := Option.some.inj (hsame.symm.trans h)
      exact leafBelow_of_isLeaf leaf hleaf
    · obtain ⟨key, child, hkey, hchild, hrest⟩ := hdown.exists_initialChild heq h
      have hleaf := Node.isLeaf_eq_false_iff.mpr ⟨key, child, hchild⟩
      rw [leafBelow_of_initialChild hleaf hkey hchild]
      exact ih key child hchild (get?_child_of_get? h hchild) hrest

/-- **The default leaf of a node** is the one leaf to which initial children lead. -/
theorem leafOf_eq_ok_iff : tree.leafOf path = .ok leaf ↔ tree.DescendsTo path leaf := by
  refine ⟨descendsTo_of_leafOf, fun hdown => ?_⟩
  obtain ⟨node, hnode⟩ := hdown.hasLeaf.hasNode.of_startsWith hdown.below
  exact (leafOf_eq hnode).trans (leafBelow_of_descendsTo hnode hdown)

end Tree

end Statechart
