import Mathlib.Data.List.Lex
import Statechart.Proofs.Tree.Lookup

/-!
# Listing nodes from the top down

Checking a root and walking through a tree go through the same nodes in different orders, but in
the same manner: a node comes before its children, and all that lies below one child before
anything that lies below the next (`Node.IsTopDown`). The order of the children decides the rest.
Such a list has every node with its path (`Node.IsTopDown.mem_iff`), and its paths are ordered like
words in a dictionary, if keys are ordered as the children are (`Node.IsTopDown.pairwise`).

A stack of the nodes that are still to come makes the same list, and no other
(`Node.IsTopDown.unstacks_iff`).
-/

namespace Statechart

namespace Node

/-- **A listing of the nodes below a node**, with the node first and then its children, each with
all that lies below it, in a given order. -/
structure IsTopDown (list : Path → Node → List (Path × Node))
    (order : Node → List (String × Node)) : Prop where
  /-- A node is listed before its children, and these one after the other. -/
  eq_cons : ∀ path node, list path node
    = (path, node) :: (order node).flatMap fun entry => list (path.child entry.1) entry.2
  /-- Nothing but the children is put in order. -/
  mem_order_iff : ∀ node key child, (key, child) ∈ order node ↔ node.child? key = some child

/-- **Emptying a stack of nodes**: the node on top is taken and listed, and its children are put
there instead, the first of them on top, until the stack is empty. -/
inductive Unstacks (order : Node → List (String × Node)) :
    List (Path × Node) → List (Path × Node) → Prop where
  | done : Unstacks order [] []
  | take {path : Path} {node : Node} {stack listed : List (Path × Node)}
      (rest : Unstacks order
        ((order node).map (fun entry => (path.child entry.1, entry.2)) ++ stack) listed) :
      Unstacks order ((path, node) :: stack) ((path, node) :: listed)

namespace IsTopDown

variable {list : Path → Node → List (Path × Node)} {order : Node → List (String × Node)}
variable {path found : Path} {node target : Node}

/-- **Below a node all nodes are listed** that keys lead to from there. -/
theorem mem_iff (h : IsTopDown list order) :
    (found, target) ∈ list path node
      ↔ ∃ below, found = ⟨path.segments ++ below⟩ ∧ node.descend? below = some target := by
  induction node using Node.induction generalizing path with
  | step node ih =>
    rw [h.eq_cons, List.mem_cons, List.mem_flatMap]
    constructor
    · rintro (heq | ⟨⟨key, child⟩, hmem, hbelow⟩)
      · cases heq
        exact ⟨[], Path.ext_segments (List.append_nil _).symm, descend?_nil _⟩
      · have hchild := (h.mem_order_iff node key child).mp hmem
        obtain ⟨below, hpath, htarget⟩ := (ih key child hchild).mp hbelow
        refine ⟨key :: below, ?_, ?_⟩
        · rw [hpath, Path.segments_child, List.append_assoc, List.singleton_append]
        · rw [descend?, hchild, Option.bind_some, htarget]
    · rintro ⟨below, hpath, htarget⟩
      cases below with
      | nil =>
        rw [descend?_nil, Option.some.injEq] at htarget
        rw [List.append_nil] at hpath
        exact Or.inl (Prod.ext hpath htarget.symm)
      | cons key below =>
        rw [descend?] at htarget
        obtain ⟨child, hchild, htarget⟩ := Option.bind_eq_some_iff.mp htarget
        refine Or.inr ⟨(key, child), (h.mem_order_iff node key child).mpr hchild, ?_⟩
        refine (ih key child hchild).mpr ⟨below, ?_, htarget⟩
        rw [hpath, Path.segments_child, List.append_assoc, List.singleton_append]

/-- From the root all nodes are listed that there are. -/
theorem mem_root_iff (h : IsTopDown list order) :
    (found, target) ∈ list .root node ↔ node.get? found = some target := by
  rw [h.mem_iff]
  constructor
  · rintro ⟨below, rfl, hbelow⟩
    exact hbelow
  · exact fun hfound => ⟨found.segments, rfl, hfound⟩

/-- Whatever is listed at or below a child has its key on the way. -/
theorem exists_of_mem_child {key : String} {child : Node} (h : IsTopDown list order)
    (hmem : (found, target) ∈ list (path.child key) child) :
    ∃ below, found.segments = path.segments ++ key :: below := by
  obtain ⟨below, rfl, -⟩ := h.mem_iff.mp hmem
  exact ⟨below, by rw [Path.segments_child, List.append_assoc, List.singleton_append]⟩

/-- **Paths are listed in the order of a dictionary**, if the keys of the children are its
letters in their order. -/
theorem pairwise {before : String → String → Prop} (h : IsTopDown list order)
    (hsorted : ∀ node, (order node).Pairwise fun entry entry' => before entry.1 entry'.1)
    (path : Path) (node : Node) :
    (list path node).Pairwise fun earlier later =>
      List.Lex before earlier.1.segments later.1.segments := by
  induction node using Node.induction generalizing path with
  | step node ih =>
    rw [h.eq_cons, List.pairwise_cons, List.pairwise_flatMap]
    refine ⟨?_, ?_, ?_⟩
    · -- the node comes before everything below it
      rintro ⟨found, target⟩ hmem
      obtain ⟨⟨key, child⟩, -, hbelow⟩ := List.mem_flatMap.mp hmem
      obtain ⟨below, hfound⟩ := h.exists_of_mem_child hbelow
      have hlt := List.Lex.append_left before (.nil (a := key) (l := below)) path.segments
      rwa [List.append_nil, ← hfound] at hlt
    · -- below one child the order is kept
      rintro ⟨key, child⟩ hmem
      exact ih key child ((h.mem_order_iff node key child).mp hmem) _
    · -- what lies below two children is ordered as they are
      refine (hsorted node).imp ?_
      rintro ⟨key, child⟩ ⟨key', child'⟩ hlt ⟨found, target⟩ hmem ⟨found', target'⟩ hmem'
      obtain ⟨below, hfound⟩ := h.exists_of_mem_child hmem
      obtain ⟨below', hfound'⟩ := h.exists_of_mem_child hmem'
      rw [hfound, hfound']
      exact List.Lex.append_left before (List.Lex.rel hlt) path.segments

/-! ## The same list from a stack -/

/-- To list what is on a stack, list the node on top and then what is on the stack with its
children there instead. -/
theorem flatMap_cons (h : IsTopDown list order) (path : Path) (node : Node)
    (stack : List (Path × Node)) :
    ((path, node) :: stack).flatMap (fun entry => list entry.1 entry.2)
      = (path, node) :: ((order node).map (fun entry => (path.child entry.1, entry.2))
          ++ stack).flatMap fun entry => list entry.1 entry.2 := by
  rw [List.flatMap_cons, h.eq_cons, List.flatMap_append, List.flatMap_map, List.cons_append]

/-- **Emptying a stack comes to an end**, with what is listed of the nodes on it. -/
theorem unstacks_iff (h : IsTopDown list order) {stack listed : List (Path × Node)} :
    Unstacks order stack listed ↔ listed = stack.flatMap fun entry => list entry.1 entry.2 := by
  constructor
  · intro hstack
    induction hstack with
    | done => rfl
    | take _ ih => rw [h.flatMap_cons, ← ih]
  · rintro rfl
    -- with every node that is taken there is one less to list
    induction hlength : (stack.flatMap fun entry => list entry.1 entry.2).length
      generalizing stack with
    | zero =>
      cases stack with
      | nil => exact .done
      | cons top stack =>
        rw [h.flatMap_cons] at hlength
        exact nomatch hlength
    | succ length ih =>
      cases stack with
      | nil => exact nomatch hlength
      | cons top stack =>
        rw [h.flatMap_cons, List.length_cons] at hlength
        rw [h.flatMap_cons]
        exact .take (ih (Nat.succ.inj hlength))

end IsTopDown

end Node

end Statechart
