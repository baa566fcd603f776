import Mathlib.Data.List.Nodup
import Statechart.Proofs.Tree.Faultless
import Statechart.Proofs.Tree.Listing

/-!
# Visiting all nodes

Checking a root means visiting its nodes one after the other, a node before its
children and the last of its children first. The visit is described by what it
lists and in which order (`Node.IsVisit`): every node with its path, and the
paths in the order of a dictionary whose letters are the keys in descending
order. That leaves a single list (`Node.IsVisit.unique`), and it is the one that
`Node.visitsBelow` puts together by recursion (`Node.isVisit_visits`).

The faults of a root are those of its nodes in this order (`Node.faults_eq_visits`).
The same visit is made without recursion, by emptying a stack of the nodes that are
still to come (`Node.unstacks_root_iff`).
-/

namespace Statechart

/-- **The order of a visit.** A path comes before every path below it, and of two
paths that part, the one that goes on with the greater id comes first. -/
def Path.VisitedBefore (earlier later : Path) : Prop :=
  List.Lex (fun key key' => key' < key) earlier.segments later.segments

namespace Path

instance (earlier later : Path) : Decidable (earlier.VisitedBefore later) :=
  inferInstanceAs (Decidable
    (List.Lex (fun key key' : String => key' < key) earlier.segments later.segments))

instance : Std.Asymm VisitedBefore :=
  ⟨fun earlier later =>
    (List.Lex.asymm fun key key' : String => key' < key).asymm earlier.segments later.segments⟩

end Path

namespace Node

/-- **A list of all nodes of a root in the order of a visit**, each with its
path. -/
structure IsVisit (root : Node) (visits : List (Path × Node)) : Prop where
  /-- It lists the nodes of the root. -/
  mem_iff : ∀ path node, (path, node) ∈ visits ↔ root.get? path = some node
  /-- Each comes before the next in the order of a visit. -/
  ordered : visits.Pairwise fun earlier later => earlier.1.VisitedBefore later.1

namespace IsVisit

variable {root : Node} {visits visits' : List (Path × Node)}

/-- No path is visited twice. -/
theorem nodup_paths (h : root.IsVisit visits) : (visits.map Prod.fst).Nodup :=
  List.pairwise_map.mpr
    (h.ordered.imp fun {earlier later} hlt (heq : earlier.1 = later.1) =>
      irrefl_of Path.VisitedBefore later.1 (heq ▸ hlt))

/-- **There is only one visit of a root.** -/
theorem unique (h : root.IsVisit visits) (h' : root.IsVisit visits') : visits = visits' := by
  have hperm : visits.Perm visits' :=
    (List.perm_ext_iff_of_nodup (.of_map _ h.nodup_paths) (.of_map _ h'.nodup_paths)).mpr
      fun (path, node) => (h.mem_iff path node).trans (h'.mem_iff path node).symm
  exact hperm.eq_of_pairwise (fun _ _ _ _ hlt hgt => absurd hgt (asymm hlt)) h.ordered h'.ordered

end IsVisit

/-! ## The visit by recursion -/

mutual

/-- The node at a path and all nodes below it, in the order of a visit. -/
def visitsBelow (path : Path) : Node → List (Path × Node)
  | ⟨id, initial, children, transitions, entry, exit⟩ =>
    (path, ⟨id, initial, children, transitions, entry, exit⟩) :: visitsAmong path children

/-- Some siblings and all nodes below them, in the order of a visit. -/
def visitsAmong (path : Path) {bound : Option String} :
    KeyMap Node bound → List (Path × Node)
  | .nil => []
  | .cons key _ child rest => visitsAmong path rest ++ visitsBelow (path.child key) child

end

/-- All nodes of a root, in the order of a visit. -/
def visits (root : Node) : List (Path × Node) := visitsBelow .root root

theorem visitsAmong_eq (path : Path) {bound : Option String} (children : KeyMap Node bound) :
    visitsAmong path children
      = children.toList.reverse.flatMap fun entry => visitsBelow (path.child entry.1) entry.2 := by
  induction children with
  | nil => rw [visitsAmong, KeyMap.toList, List.reverse_nil, List.flatMap_nil]
  | cons key above child rest ih =>
    rw [visitsAmong, ih, KeyMap.toList, List.reverse_cons, List.flatMap_append,
      List.flatMap_singleton]

/-- A visit starts with the node and goes on with its children, the last of them
first. -/
theorem visitsBelow_eq (path : Path) (node : Node) :
    visitsBelow path node
      = (path, node) :: node.children.toList.reverse.flatMap fun entry =>
          visitsBelow (path.child entry.1) entry.2 := by
  obtain ⟨id, initial, children, transitions, entry, exit⟩ := node
  rw [visitsBelow, visitsAmong_eq]

mutual

theorem faultsBelow_eq_visits (root : Node) (path : Path) : ∀ node : Node,
    faultsBelow root path node
      = (visitsBelow path node).flatMap fun visit => ownFaults root visit.1 visit.2
  | ⟨id, initial, children, transitions, entry, exit⟩ => by
    rw [faultsBelow, visitsBelow, List.flatMap_cons, faultsAmong_eq_visits root path children]

theorem faultsAmong_eq_visits (root : Node) (path : Path) {bound : Option String} :
    ∀ children : KeyMap Node bound, faultsAmong root path children
      = (visitsAmong path children).flatMap fun visit => ownFaults root visit.1 visit.2
  | .nil => by rw [faultsAmong, visitsAmong, List.flatMap_nil]
  | .cons key _ child rest => by
    rw [faultsAmong, visitsAmong, List.flatMap_append, faultsAmong_eq_visits root path rest,
      faultsBelow_eq_visits root (path.child key) child]

end

/-- **The faults of a root are those of its nodes**, in the order of a visit. -/
theorem faults_eq_visits (root : Node) :
    root.faults = root.visits.flatMap fun visit => ownFaults root visit.1 visit.2 :=
  faultsBelow_eq_visits root .root root

/-! ## What is visited, and in which order -/

/-- A visit goes from the top down, and takes the children with the greatest key first. -/
theorem isTopDown_visitsBelow :
    IsTopDown visitsBelow fun node => node.children.toList.reverse where
  eq_cons := visitsBelow_eq
  mem_order_iff _ _ _ := List.mem_reverse.trans KeyMap.mem_toList_iff

theorem mem_visits {root target : Node} {found : Path} :
    (found, target) ∈ root.visits ↔ root.get? found = some target :=
  isTopDown_visitsBelow.mem_root_iff

/-- **The recursion makes the visit.** -/
theorem isVisit_visits (root : Node) : root.IsVisit root.visits where
  mem_iff _ _ := mem_visits
  ordered := by
    refine isTopDown_visitsBelow.pairwise (fun node => ?_) .root root
    exact List.pairwise_reverse.mpr (List.pairwise_map.mp node.children.pairwise_keys)

/-- **A visit is what a stack with the root on it lists**, if the children of a node are put on
it in the order of their keys, and so the last of them is taken first. -/
theorem unstacks_root_iff (root : Node) (visits : List (Path × Node)) :
    Unstacks (fun node => node.children.toList.reverse) [(.root, root)] visits
      ↔ root.IsVisit visits := by
  rw [isTopDown_visitsBelow.unstacks_iff, List.flatMap_singleton]
  constructor
  · rintro rfl
    exact root.isVisit_visits
  · exact fun h => h.unique root.isVisit_visits

end Node

end Statechart
