import Statechart.Proofs.Machine.Refusal
import Statechart.Proofs.Path.Grammar
import Statechart.Proofs.Tree.Check

/-!
# Naming states by text

Whoever asks a machine where it is gets a text, and asks with a text whether it is within some
state (`Machine.isWithin`). Texts may begin alike although the states have nothing to do with
each other: `onair` begins like `on`, but does not lie within it.

What keeps them apart is that reading leniently takes the two sides of a dot one by one
(`Path.ofDotted_append`). So a text that goes on after another one with a dot is read as a path
that goes on after the other one's path, and for paths that can be written the converse holds as
well (`Path.startsWith_iff_dotted`). All paths to the nodes of a tree can be written
(`Tree.HasNode.isPlain`), and at any moment the active path is one of them.
-/

namespace Statechart

/-! ## Texts that go on after a dot -/

namespace Dotted

/-- A text is cut at any of its dots, and then on both sides of it. -/
theorem pieces_append (text rest : List Char) :
    pieces (text ++ '.' :: rest) = pieces text ++ pieces rest := by
  rw [pieces_eq_splitOn, pieces_eq_splitOn, pieces_eq_splitOn, List.splitOn_append_cons_self]

/-- Two lists of pieces are joined with one more dot between them. -/
theorem join_append {pieces others : List (List Char)} (hne : pieces ≠ []) (hne' : others ≠ []) :
    join (pieces ++ others) = join pieces ++ '.' :: join others := by
  induction pieces with
  | nil => exact absurd rfl hne
  | cons piece rest ih =>
    cases rest with
    | nil =>
      cases others with
      | nil => exact absurd rfl hne'
      | cons other others => rfl
    | cons next rest =>
      show piece ++ '.' :: join (next :: rest ++ others) = piece ++ '.' :: join (next :: rest) ++ _
      rw [ih (List.cons_ne_nil _ _), List.append_assoc]
      rfl

end Dotted

namespace Path

variable {path outer : Path} {text rest : String}

/-- **The two sides of a dot are read one by one.** -/
theorem ofDotted_append (text rest : String) :
    (ofDotted (text ++ "." ++ rest)).segments
      = (ofDotted text).segments ++ (ofDotted rest).segments := by
  have hdot : (text ++ "." ++ rest).toList = text.toList ++ '.' :: rest.toList := by
    rw [String.toList_append, String.toList_append, List.append_assoc]
    rfl
  show List.map _ (List.filter _ (Dotted.pieces (text ++ "." ++ rest).toList)) = _
  rw [hdot, Dotted.pieces_append, List.filter_append, List.map_append]
  rfl

/-- The text of a longer path goes on after a dot. -/
theorem dotted_append {ids others : List String} (hne : ids ≠ []) (hne' : others ≠ []) :
    dotted ⟨ids ++ others⟩ = dotted ⟨ids⟩ ++ "." ++ dotted ⟨others⟩ := by
  refine String.toList_inj.mp ?_
  rw [String.toList_append, String.toList_append, toList_dotted, toList_dotted, toList_dotted,
    List.map_append, Dotted.join_append (mt List.map_eq_nil_iff.mp hne)
      (mt List.map_eq_nil_iff.mp hne'), List.append_assoc]
  rfl

/-- **Plain paths are told apart by their texts.** -/
theorem IsPlain.dotted_inj (hpath : path.IsPlain) (houter : outer.IsPlain) :
    path.dotted = outer.dotted ↔ path = outer := by
  refine ⟨fun h => ?_, congrArg dotted⟩
  rw [← ofDotted_dotted_iff.mpr hpath, h, ofDotted_dotted_iff.mpr houter]

/-- **A plain path lies at or below another** exactly if its text is that of the other or goes
on after it with a dot. -/
theorem IsPlain.startsWith_iff_dotted (hpath : path.IsPlain) (houter : outer.IsPlain)
    (hne : outer ≠ .root) :
    path.startsWith outer = true
      ↔ path.dotted = outer.dotted ∨ ∃ rest, path.dotted = outer.dotted ++ "." ++ rest := by
  constructor
  · intro h
    obtain ⟨below, hbelow⟩ := startsWith_iff.mp h
    cases below with
    | nil =>
      rw [List.append_nil] at hbelow
      exact Or.inl (congrArg dotted (ext_segments hbelow.symm))
    | cons id below =>
      have hids : outer.segments ≠ [] := fun hnil => hne (ext_segments hnil)
      have hpath : path = ⟨outer.segments ++ id :: below⟩ := ext_segments hbelow.symm
      exact Or.inr ⟨_, hpath ▸ dotted_append hids (List.cons_ne_nil id below)⟩
  · rintro (hsame | ⟨rest, hrest⟩)
    · rw [(hpath.dotted_inj houter).mp hsame]
      exact startsWith_self outer
    · -- read back, the text of the path goes on after that of the other
      have hread := ofDotted_append outer.dotted rest
      rw [← hrest, ofDotted_dotted_iff.mpr hpath, ofDotted_dotted_iff.mpr houter] at hread
      exact startsWith_iff.mpr ⟨_, hread.symm⟩

/-- **Asking with the text of a plain path** is asking with the path. -/
theorem IsPlain.isWithin_dotted_iff (houter : outer.IsPlain) :
    path.isWithin outer.dotted = true ↔ path.startsWith outer = true := by
  unfold isWithin
  rw [ofDotted_dotted_iff.mpr houter]

end Path

/-! ## Where states are -/

/-- **Every path to a node of a tree can be written.** -/
theorem Tree.HasNode.isPlain {tree : Tree} {path : Path} (h : tree.HasNode path) :
    path.IsPlain := by
  induction path using Path.induction with
  | root => exact fun _ hmem => nomatch hmem
  | child outer key ih =>
    have hparent : tree.HasNode outer := h.of_startsWith (Path.startsWith_child outer key)
    refine List.forall_mem_append.mpr ⟨ih hparent, List.forall_mem_singleton.mpr ?_⟩
    obtain ⟨parent, hget⟩ := hparent
    obtain ⟨child, hchild⟩ := h
    rw [Tree.get?_child, hget, Option.bind_some] at hchild
    obtain ⟨hempty, hdot, -⟩ :=
      (Node.faults_eq_nil_iff.mp tree.faultless outer parent hget).keys key child hchild
    exact ⟨hempty, hdot⟩

variable {C L : Type}

/-- **Whatever is active is in the tree**, at any moment. -/
theorem Machine.Reachable.hasNode {machine now : Machine C L} {path : Path}
    (h : machine.Reachable now) (built : machine.Built) (hactive : now.active = some path) :
    machine.tree.HasNode path := by
  rw [← h.tree_eq]
  cases h with
  | between run =>
    obtain ⟨-, hnone⟩ | ⟨leaf, hleaf, hhas⟩ := run.resting built.resting
    · exact nomatch hnone.symm.trans hactive
    · exact Option.some.inj (hleaf.symm.trans hactive) ▸ hhas.hasNode
  | during run during =>
    obtain ⟨-, found, hfound, hhas⟩ := during.stands
    exact Option.some.inj (hfound.symm.trans hactive) ▸ hhas

/-- **States are named by text faithfully.** In every tree, two nodes with the same text have the
same path; the text of any node but the root is read back strictly; and a path is within the text
of a node exactly if the node is the same or lies properly around it, which is so exactly if its
text is the same or goes on after that of the node with a dot, if the node is not the root. So
wherever a machine may be called, the active path is read back from its text, and it is the only
path in the tree with this text; and the machine is within the text of a node exactly if the node
is active or a node around the active one. -/
theorem Machine.dotted_faithful :
    (∀ (tree : Tree) (path outer : Path), tree.HasNode path → tree.HasNode outer →
        (path.dotted = outer.dotted ↔ path = outer)
          ∧ (path ≠ .root → Path.ofExactDotted path.dotted = .ok path)
          ∧ (path.isWithin outer.dotted = true ↔ outer = path ∨ path.LiesBelow outer)
          ∧ (outer ≠ .root → ((outer = path ∨ path.LiesBelow outer)
            ↔ path.dotted = outer.dotted ∨ ∃ rest, path.dotted = outer.dotted ++ "." ++ rest)))
      ∧ ∀ machine : Machine C L, machine.Built → ∀ now, machine.Reachable now →
        ∀ path, now.active = some path →
          Path.ofDotted path.dotted = path
            ∧ (path ≠ .root → Path.ofExactDotted path.dotted = .ok path)
            ∧ ∀ outer, machine.tree.HasNode outer →
              (path.dotted = outer.dotted ↔ path = outer)
              ∧ (now.isWithin outer.dotted = true ↔ outer = path ∨ path.LiesBelow outer) := by
  have hexact {tree : Tree} {path : Path} (h : tree.HasNode path) (hne : path ≠ .root) :
      Path.ofExactDotted path.dotted = .ok path :=
    Path.ofExactDotted_eq_ok_iff.mpr ⟨fun hnil => hne (Path.ext_segments hnil), h.isPlain, rfl⟩
  constructor
  · intro tree path outer hpath houter
    refine ⟨hpath.isPlain.dotted_inj houter.isPlain, hexact hpath, ?_, fun hne => ?_⟩
    · rw [houter.isPlain.isWithin_dotted_iff, Path.startsWith_iff_eq_or_liesBelow]
    · rw [← Path.startsWith_iff_eq_or_liesBelow,
        hpath.isPlain.startsWith_iff_dotted houter.isPlain hne]
  · intro machine built now hreachable path hactive
    have hpath := hreachable.hasNode built hactive
    refine ⟨Path.ofDotted_dotted_iff.mpr hpath.isPlain, hexact hpath, fun outer houter => ?_⟩
    refine ⟨hpath.isPlain.dotted_inj houter.isPlain, ?_⟩
    unfold Machine.isWithin
    rw [hactive, Option.any_some, houter.isPlain.isWithin_dotted_iff,
      Path.startsWith_iff_eq_or_liesBelow]

/-! ## A studio

A machine to look at: a studio in which somebody speaks on air, or the lights are on. -/

namespace Studio

/-- The states of the studio: the id of one of them begins like that of the other. -/
def root : Node :=
  { Node.leaf "studio" with
    initial := some "onair"
    children := .ofList [
      ("on",
        { Node.leaf "on" with
          initial := some "air"
          children := .ofList [("air", .leaf "air")] }),
      ("onair", .leaf "onair")] }

/-- The studio. -/
def machine : Machine Unit String where
  tree := ⟨root, by rfl⟩
  context := ()
  bindings := ⟨[]⟩

theorem built : machine.Built :=
  .ofRoot (show Machine.ofRoot root () .empty none = .ok machine from rfl)

end Studio

/-- While somebody is `onair`, nobody is `on`, though the one text begins with the other. What
is within `on` is `on.air`. -/
theorem Machine.dotted_faithful_studio : ∃ now, Studio.machine.Reachable now
    ∧ now.active = some ⟨["onair"]⟩ ∧ now.isWithin "onair" = true ∧ now.isWithin "on" = false
    ∧ Path.isWithin ⟨["on", "air"]⟩ "on" = true
    ∧ Path.ofExactDotted "on.air" = .ok ⟨["on", "air"]⟩ := by
  have hon : Studio.machine.tree.HasNode ⟨["on"]⟩ := ⟨_, rfl⟩
  have honair : Studio.machine.tree.HasNode ⟨["onair"]⟩ := ⟨_, rfl⟩
  have hair : Studio.machine.tree.HasNode ⟨["on", "air"]⟩ := ⟨_, rfl⟩
  obtain ⟨hstates, hmachines⟩ := @dotted_faithful Unit String
  obtain ⟨-, hread, hwithin, -⟩ := hstates _ _ _ hair hon
  have hstart : (Studio.machine.start 1).map (·.machine.active) = some (some ⟨["onair"]⟩) := rfl
  obtain ⟨started, hstarted, hactive⟩ := Option.map_eq_some_iff.mp hstart
  have hreachable := Reachable.between (.concat .nil (.start hstarted))
  obtain ⟨-, -, hnow⟩ := hmachines _ Studio.built _ hreachable _ hactive
  refine ⟨_, hreachable, hactive, ?_, ?_, hwithin.mpr (by decide), hread (by decide)⟩
  · exact (hnow _ honair).2.mpr (by decide)
  · exact Bool.eq_false_iff.mpr (mt (hnow _ hon).2.mp (by decide))

end Statechart
