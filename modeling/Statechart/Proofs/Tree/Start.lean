import Statechart.Proofs.Tree.Check
import Statechart.Proofs.Tree.Domain
import Statechart.Tree.Start

/-!
# What it means to start somewhere else

Making a tree start at a path rewrites the nodes properly around that path, and
nothing else. Two facts say all about a rewritten root, one for each kind of path:
a node around the start takes the next node on the way for its initial child and
keeps the rest (`Node.LedTo.around`), and whatever stands elsewhere stands there
unchanged, with all that is below it (`Node.LedTo.elsewhere`).

So the same paths exist, every node is as well-formed as it was, and making the
tree again cannot fail. The start therefore decides alone (`Tree.startingAt_redirects`):
if it exists there is a tree that starts there (`Tree.Redirected`), and if not, it
is refused as looking it up is refused.
-/

namespace Statechart

namespace Node

variable {node found rebuilt : Node} {path start : Path} {keys outer inner : List String}

/-! ## Rewriting along a list of keys -/

@[simp] theorem leadingTo_nil (path : Path) (node : Node) : node.leadingTo path [] = .ok node := by
  rw [leadingTo]

/-- **One step of rewriting**: the child on the way is rewritten, and is the initial one. -/
theorem leadingTo_cons_eq_ok_iff {key : String} {rest : List String} :
    node.leadingTo path (key :: rest) = .ok rebuilt
      ↔ ∃ child child', node.child? key = some child
        ∧ child.leadingTo (path.child key) rest = .ok child'
        ∧ rebuilt
          = { node with initial := some key, children := node.children.insert key child' } := by
  rw [leadingTo]
  cases node.child? key with
  | none => exact iff_of_false nofun nofun
  | some child =>
    simp only [Option.some.injEq, exists_and_left, exists_eq_left']
    cases child.leadingTo (path.child key) rest with
    | error error => exact iff_of_false nofun nofun
    | ok child' =>
      constructor
      · intro ok
        exact ⟨child', rfl, (Except.ok.inj ok).symm⟩
      · rintro ⟨_, hchild', rfl⟩
        obtain rfl := Except.ok.inj hchild'
        rfl

/-- **Rewriting fails as looking up does**, and only then. -/
theorem leadingTo_eq_error_iff {error : MachineError} :
    node.leadingTo path keys = .error error
      ↔ Tree.resolveBelow path node keys = .error error := by
  induction keys generalizing path node with
  | nil => rw [leadingTo_nil, Tree.resolveBelow]
  | cons key rest ih =>
    rw [leadingTo, Tree.resolveBelow]
    cases node.child? key with
    | none => exact Iff.rfl
    | some child =>
      dsimp only
      rw [← ih]
      cases child.leadingTo (path.child key) rest with
      | error error' => exact Iff.rfl
      | ok child' => constructor <;> rintro ⟨⟩

/-- A node on the way is rewritten with the keys that are left from there. -/
theorem leadingTo_append (h : node.leadingTo path (outer ++ inner) = .ok rebuilt) :
    ∃ found found', node.descend? outer = some found ∧ rebuilt.descend? outer = some found'
      ∧ found.leadingTo ⟨path.segments ++ outer⟩ inner = .ok found' := by
  induction outer generalizing path node rebuilt with
  | nil =>
    refine ⟨node, rebuilt, descend?_nil node, descend?_nil rebuilt, ?_⟩
    rwa [List.append_nil]
  | cons key rest ih =>
    obtain ⟨child, child', hchild, hrest, rfl⟩ := leadingTo_cons_eq_ok_iff.mp h
    obtain ⟨found, found', hfound, hfound', hinner⟩ := ih hrest
    refine ⟨found, found', ?_, ?_, ?_⟩
    · rw [descend?, hchild, Option.bind_some, hfound]
    · rw [descend?, child?, KeyMap.get?_insert_self, Option.bind_some, hfound']
    · rwa [Path.segments_child, List.append_assoc] at hinner

/-- **Off the way nothing is rewritten.** -/
theorem descend?_of_leadingTo (h : node.leadingTo path keys = .ok rebuilt)
    (hoff : ¬ inner <+: keys) : rebuilt.descend? inner = node.descend? inner := by
  induction keys generalizing path node rebuilt inner with
  | nil =>
    rw [leadingTo_nil] at h
    rw [Except.ok.inj h]
  | cons key rest ih =>
    obtain ⟨child, child', hchild, hrest, rfl⟩ := leadingTo_cons_eq_ok_iff.mp h
    cases inner with
    | nil => exact absurd List.nil_prefix hoff
    | cons first others =>
      rw [descend?, descend?]
      show (KeyMap.get? first (node.children.insert key child')).bind _ = _
      rw [KeyMap.get?_insert]
      split
      · rename_i heq
        rw [heq, hchild, Option.bind_some, Option.bind_some]
        exact ih hrest fun hon => hoff (heq ▸ List.cons_prefix_cons.mpr ⟨rfl, hon⟩)
      · rfl

/-- **Rewriting twice is rewriting once.** -/
theorem leadingTo_again (h : node.leadingTo path keys = .ok rebuilt) :
    rebuilt.leadingTo path keys = .ok rebuilt := by
  induction keys generalizing path node rebuilt with
  | nil => exact leadingTo_nil path rebuilt
  | cons key rest ih =>
    obtain ⟨child, child', hchild, hrest, rfl⟩ := leadingTo_cons_eq_ok_iff.mp h
    refine leadingTo_cons_eq_ok_iff.mpr
      ⟨child', child', KeyMap.get?_insert_self _ _ _, ih hrest, ?_⟩
    rw [KeyMap.insert_eq_self (KeyMap.get?_insert_self _ _ _)]

/-! ## A rewritten root -/

/-- **A root that has been rewritten** to start at a path. -/
def LedTo (root : Node) (start : Path) (rebuilt : Node) : Prop :=
  root.leadingTo .root start.segments = .ok rebuilt

namespace LedTo

variable {root rebuilt : Node} {key : String}

/-- **A node around the start** takes the next one on the way for its initial child, and there
is such a child. Its own children apart, the rest is as it was. -/
theorem around (h : root.LedTo start rebuilt) (haround : start.startsWith (path.child key) = true) :
    ∃ node children, root.get? path = some node
      ∧ rebuilt.get? path = some { node with initial := some key, children }
      ∧ (node.child? key).isSome = true ∧ (children.get? key).isSome = true := by
  obtain ⟨rest, hrest⟩ := Path.startsWith_iff.mp haround
  rw [Path.segments_child, List.append_assoc, List.singleton_append] at hrest
  unfold LedTo at h
  rw [← hrest] at h
  obtain ⟨found, found', hfound, hfound', hleads⟩ := leadingTo_append h
  obtain ⟨child, child', hchild, -, rfl⟩ := leadingTo_cons_eq_ok_iff.mp hleads
  refine ⟨found, _, hfound, hfound', ?_, ?_⟩
  · rw [hchild]
    rfl
  · rw [KeyMap.get?_insert_self]
    rfl

/-- **Elsewhere every node is the same**, with all that is below it. -/
theorem elsewhere (h : root.LedTo start rebuilt) (helse : ¬ start.LiesBelow path) :
    rebuilt.get? path = root.get? path := by
  by_cases heq : start = path
  · -- the start itself has no keys left to be rewritten with
    subst heq
    unfold LedTo at h
    rw [← List.append_nil start.segments] at h
    obtain ⟨found, found', hfound, hfound', hleads⟩ := leadingTo_append h
    rw [leadingTo_nil] at hleads
    obtain rfl := Except.ok.inj hleads
    exact hfound'.trans hfound.symm
  · refine descend?_of_leadingTo h fun hprefix => helse ⟨Path.startsWith_iff.mpr hprefix, heq⟩

/-- **A node of a rewritten root** stands where one stood before, and has its id, its
transitions and its actions. -/
theorem exists_before {node' : Node} (h : root.LedTo start rebuilt)
    (hnode' : rebuilt.get? path = some node') :
    ∃ node, root.get? path = some node ∧ node'.id = node.id ∧ node'.transitions = node.transitions
      ∧ node'.entry = node.entry ∧ node'.exit = node.exit := by
  by_cases hbelow : start.LiesBelow path
  · obtain ⟨key, haround⟩ := Path.liesBelow_iff_exists_child.mp hbelow
    obtain ⟨node, children, hnode, hrebuilt, -⟩ := h.around haround
    obtain rfl := Option.some.inj (hrebuilt.symm.trans hnode')
    exact ⟨node, hnode, rfl, rfl, rfl, rfl⟩
  · exact ⟨node', h.elsewhere hbelow ▸ hnode', rfl, rfl, rfl, rfl⟩

/-- **The same paths exist** in a rewritten root. -/
theorem exists_get?_iff (h : root.LedTo start rebuilt) :
    (∃ node, rebuilt.get? path = some node) ↔ ∃ node, root.get? path = some node := by
  by_cases hbelow : start.LiesBelow path
  · obtain ⟨key, haround⟩ := Path.liesBelow_iff_exists_child.mp hbelow
    obtain ⟨node, children, hnode, hrebuilt, -⟩ := h.around haround
    exact iff_of_true ⟨_, hrebuilt⟩ ⟨_, hnode⟩
  · rw [h.elsewhere hbelow]

/-- **Rewriting a well-formed root** leaves it well-formed. -/
theorem wellFormed (h : root.LedTo start rebuilt) (hroot : root.WellFormed) :
    rebuilt.WellFormed := by
  intro path node' hnode'
  obtain ⟨node, hnode, -, htransitions, -⟩ := h.exists_before hnode'
  have hwell := hroot path node hnode
  refine ⟨fun key child' hchild' => ?_, fun hleaf => ?_, fun event target htarget => ?_⟩
  · -- a child stands where one with the same id stood
    have hbelow : rebuilt.get? (path.child key) = some child' := by
      rw [get?_child, hnode', Option.bind_some, hchild']
    obtain ⟨child, hchild, hid, -⟩ := h.exists_before hbelow
    rw [get?_child, hnode, Option.bind_some] at hchild
    rw [hid]
    exact hwell.keys key child hchild
  · by_cases hbelow : start.LiesBelow path
    · obtain ⟨key, haround⟩ := Path.liesBelow_iff_exists_child.mp hbelow
      obtain ⟨_, children, -, hrebuilt, -, hsome⟩ := h.around haround
      obtain rfl := Option.some.inj (hrebuilt.symm.trans hnode')
      obtain ⟨child, hchild⟩ := Option.isSome_iff_exists.mp hsome
      exact ⟨key, child, rfl, hchild⟩
    · obtain rfl := Option.some.inj (hnode'.symm.trans ((h.elsewhere hbelow).trans hnode))
      exact hwell.initial hleaf
  · rw [transition?, htransitions] at htarget
    obtain ⟨hne, haim⟩ := hwell.targets event target htarget
    exact ⟨hne, h.exists_get?_iff.mpr haim⟩

end LedTo

end Node

namespace Tree

variable {tree started : Tree} {start path : Path} {node : Node}

theorem startingAt_eq_ok_iff :
    tree.startingAt start = .ok started ↔ tree.root.LedTo start started.root := by
  unfold Tree.startingAt Node.LedTo
  cases tree.root.leadingTo .root start.segments with
  | error error => exact iff_of_false nofun nofun
  | ok rebuilt =>
    show Tree.ofNode rebuilt = .ok started ↔ _
    rw [ofNode_eq_ok_iff, Except.ok.injEq]
    exact eq_comm

/-- **A tree starts anywhere** where it has a node. -/
theorem exists_startingAt (h : tree.HasNode start) :
    ∃ started, tree.startingAt start = .ok started := by
  obtain ⟨node, hnode⟩ := h
  cases hleads : tree.root.leadingTo .root start.segments with
  | error error =>
    have herror : tree.resolve start = .error error := Node.leadingTo_eq_error_iff.mp hleads
    exact nomatch herror.symm.trans (resolve_eq_ok_iff.mpr hnode)
  | ok rebuilt =>
    have hwell := Node.LedTo.wellFormed hleads (Node.faults_eq_nil_iff.mp tree.faultless)
    exact ⟨⟨rebuilt, Node.faults_eq_nil_iff.mpr hwell⟩, startingAt_eq_ok_iff.mpr hleads⟩

theorem startingAt_eq_error {error : MachineError} (h : tree.resolve start = .error error) :
    tree.startingAt start = .error error := by
  have hleads : tree.root.leadingTo .root start.segments = .error error :=
    Node.leadingTo_eq_error_iff.mpr h
  unfold Tree.startingAt
  rw [hleads]
  rfl

/-- **Where a tree does not start** there is nothing to look up, for the same reason. -/
theorem startingAt_eq_error_iff {error : MachineError} :
    tree.startingAt start = .error error ↔ tree.resolve start = .error error := by
  constructor
  · intro herror
    cases hresolve : tree.resolve start with
    | ok node =>
      obtain ⟨started, ok⟩ := exists_startingAt ⟨node, resolve_eq_ok_iff.mp hresolve⟩
      exact nomatch ok.symm.trans herror
    | error error' =>
      have hsame := (startingAt_eq_error hresolve).symm.trans herror
      exact congrArg Except.error (Except.error.inj hsame)
  · exact startingAt_eq_error

/-- **From every node around the start** the leaf of the start is reached. -/
theorem leafOf_around (h : tree.root.LedTo start started.root) (hstart : tree.HasNode start)
    (haround : start.startsWith path = true) : started.leafOf path = tree.leafOf start := by
  obtain ⟨rest, hrest⟩ := Path.startsWith_iff.mp haround
  induction rest generalizing path with
  | nil =>
    rw [List.append_nil] at hrest
    obtain rfl := Path.ext_segments hrest
    obtain ⟨node, hnode⟩ := hstart
    have hsame : started.get? path = some node := (h.elsewhere fun hself => hself.2 rfl).trans hnode
    rw [leafOf_eq hsame, leafOf_eq hnode]
  | cons key rest ih =>
    rw [List.append_cons] at hrest
    have hchild : start.startsWith (path.child key) = true := Path.startsWith_iff.mpr ⟨rest, hrest⟩
    obtain ⟨node, children, -, hnode, -, hsome⟩ := h.around hchild
    obtain ⟨child, hget⟩ := Option.isSome_iff_exists.mp hsome
    have hleaf : Node.isLeaf { node with initial := some key, children } = false :=
      Node.isLeaf_eq_false_iff.mpr ⟨key, child, hget⟩
    rw [← ih hchild hrest, leafOf_eq hnode, leafOf_eq (get?_child_of_get? hnode hget),
      leafBelow_of_initialChild hleaf rfl hget]

/-! ## The tree that starts somewhere else -/

/-- **A tree that starts at a path**, beside the tree that it was. -/
structure Redirected (tree started : Tree) (start : Path) : Prop where
  /-- The same paths exist. -/
  hasNode_iff : ∀ path, started.HasNode path ↔ tree.HasNode path
  /-- Every node has the id, the transitions and the actions that it had. -/
  same : ∀ path node node', tree.get? path = some node → started.get? path = some node' →
    node'.id = node.id ∧ node'.transitions = node.transitions ∧ node'.entry = node.entry
      ∧ node'.exit = node.exit
  /-- A node properly around the start has the next key on the way for its initial child. -/
  towards : ∀ path key node', start.startsWith (path.child key) = true →
    started.get? path = some node' → node'.initial = some key
  /-- Any other node has the initial child that it had. -/
  otherwise : ∀ path node node', ¬ start.LiesBelow path → tree.get? path = some node →
    started.get? path = some node' → node'.initial = node.initial
  /-- From the start and every node around it the leaf of the start is reached. -/
  leafOf_around : ∀ path, start.startsWith path = true →
    started.leafOf path = tree.leafOf start
  /-- From any other node the leaf is reached that was reached before. -/
  leafOf_otherwise : ∀ path, tree.HasNode path → ¬ start.startsWith path = true →
    started.leafOf path = tree.leafOf path
  /-- Made to start there again, the tree is the same. -/
  again : started.startingAt start = .ok started

theorem Redirected.of_ledTo (h : tree.root.LedTo start started.root)
    (hstart : tree.HasNode start) : tree.Redirected started start where
  hasNode_iff path := h.exists_get?_iff
  same path node node' hnode hnode' := by
    obtain ⟨_, hbefore, hsame⟩ := h.exists_before hnode'
    obtain rfl := Option.some.inj (hbefore.symm.trans hnode)
    exact hsame
  towards path key node' haround hnode' := by
    obtain ⟨_, _, -, hrebuilt, -⟩ := h.around haround
    obtain rfl := Option.some.inj (hrebuilt.symm.trans hnode')
    rfl
  otherwise path node node' helse hnode hnode' := by
    obtain rfl := Option.some.inj (hnode'.symm.trans ((h.elsewhere helse).trans hnode))
    rfl
  leafOf_around path haround := Tree.leafOf_around h hstart haround
  leafOf_otherwise path hpath hoff := by
    obtain ⟨node, hnode⟩ := hpath
    have hsame : started.get? path = some node :=
      (h.elsewhere fun hbelow => hoff hbelow.1).trans hnode
    rw [leafOf_eq hsame, leafOf_eq hnode]
  again := startingAt_eq_ok_iff.mpr (Node.leadingTo_again h)

/-- **A tree can be made to start at every path that exists**, and then nothing else changes.
At a path that does not exist it is refused, as looking the path up is, with the first node on
the way that is missing. -/
theorem startingAt_redirects (tree : Tree) (start : Path) :
    ((∃ started, tree.startingAt start = .ok started) ↔ tree.HasNode start)
      ∧ (¬ tree.HasNode start → ∃ missing, tree.IsFirstMissing start missing
          ∧ tree.resolve start = .error (.unknownState missing.dotted)
          ∧ tree.startingAt start = .error (.unknownState missing.dotted))
      ∧ ∀ started, tree.startingAt start = .ok started → tree.Redirected started start := by
  have hrefused (hnone : ¬ tree.HasNode start) : ∃ missing, tree.IsFirstMissing start missing
      ∧ tree.resolve start = .error (.unknownState missing.dotted)
      ∧ tree.startingAt start = .error (.unknownState missing.dotted) := by
    obtain ⟨missing, hmissing, herror⟩ := resolve_eq_error hnone
    exact ⟨missing, hmissing, herror, startingAt_eq_error_iff.mpr herror⟩
  have hexists (started : Tree) (ok : tree.startingAt start = .ok started) :
      tree.HasNode start := by
    by_contra hnone
    obtain ⟨_, -, -, herror⟩ := hrefused hnone
    exact nomatch herror.symm.trans ok
  refine ⟨⟨fun ⟨started, ok⟩ => hexists started ok, exists_startingAt⟩, hrefused, ?_⟩
  intro started ok
  exact .of_ledTo (startingAt_eq_ok_iff.mp ok) (hexists started ok)

/-- The door can be made to start wide open. It cannot be made to start in the left of a
corner, for want of a corner. -/
theorem startingAt_redirects_door : ∃ started missing,
    door.startingAt ⟨["open", "wide"]⟩ = .ok started
      ∧ started.leafOf .root = .ok ⟨["open", "wide"]⟩
      ∧ door.Redirected started ⟨["open", "wide"]⟩
      ∧ door.IsFirstMissing ⟨["open", "corner", "left"]⟩ missing ∧ missing.dotted = "open.corner"
      ∧ door.startingAt ⟨["open", "corner", "left"]⟩ = .error (.unknownState missing.dotted) := by
  have hwide : door.HasNode ⟨["open", "wide"]⟩ := ⟨_, rfl⟩
  have hcorner : ¬ door.HasNode ⟨["open", "corner", "left"]⟩ := by
    rintro ⟨node, hnode⟩
    exact nomatch hnode
  obtain ⟨hiff, -, hredirects⟩ := startingAt_redirects door ⟨["open", "wide"]⟩
  obtain ⟨started, ok⟩ := hiff.mpr hwide
  have h := hredirects started ok
  obtain ⟨-, hrefused, -⟩ := startingAt_redirects door ⟨["open", "corner", "left"]⟩
  obtain ⟨missing, hmissing, -, herror⟩ := hrefused hcorner
  have htext : door.startingAt ⟨["open", "corner", "left"]⟩
      = .error (.unknownState "open.corner") := rfl
  rw [htext] at herror
  have hdotted := MachineError.unknownState.inj (Except.error.inj herror)
  rw [hdotted] at htext
  exact ⟨started, missing, ok, h.leafOf_around .root (Path.startsWith_root _), h, hmissing,
    hdotted.symm, htext⟩

end Tree

end Statechart
