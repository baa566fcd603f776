/-!
# Paths to states

A state is addressed by the ids that lead to it from the root, outermost first.
The root has the empty path. Paths are ordered like words in a dictionary, with
the ids as letters, so a path comes before every path that goes on from it.
-/

namespace Statechart

/-- **The ids that lead from the root to a state**, outermost first. -/
structure Path where
  /-- The ids, outermost first. -/
  segments : List String
deriving DecidableEq, Repr, Inhabited

namespace Path

/-- The path of the root. -/
def root : Path := ⟨[]⟩

/-- Whether a path is that of the root. -/
def isRoot (path : Path) : Bool := path.segments.isEmpty

/-- The number of ids. -/
def length (path : Path) : Nat := path.segments.length

/-- The innermost id; the root has none. -/
def leaf? (path : Path) : Option String := path.segments.getLast?

/-- One step outwards; the root has no parent. -/
def parent? (path : Path) : Option Path :=
  if path.isRoot then none else some ⟨path.segments.dropLast⟩

/-- One step outwards, or the root itself where there is no such step. -/
def parentOrRoot (path : Path) : Path := ⟨path.segments.dropLast⟩

/-- One step inwards. -/
def child (path : Path) (id : String) : Path := ⟨path.segments ++ [id]⟩

/-- The outermost `depth` ids, or all of them if there are fewer. -/
def truncated (path : Path) (depth : Nat) : Path := ⟨path.segments.take depth⟩

/-- The path itself and every path around it, innermost first and the root
last. -/
def ancestors (path : Path) : List Path :=
  (List.range (path.length + 1)).reverse.map path.truncated

/-- Every path on the way to `path`, outermost first: without the root, with the
path itself. -/
def lineage (path : Path) : List Path :=
  (List.range path.length).map fun depth => path.truncated (depth + 1)

/-- Whether `path` lies at or below `outer`. -/
def startsWith (path outer : Path) : Bool := outer.segments.isPrefixOf path.segments

/-- The ids on which two lists agree before they part. -/
def commonIds : List String → List String → List String
  | id :: rest, id' :: rest' => if id = id' then id :: commonIds rest rest' else []
  | _, _ => []

/-- The innermost path at or above both paths. -/
def commonPrefix (left right : Path) : Path := ⟨commonIds left.segments right.segments⟩

instance : LT Path := ⟨fun left right => left.segments < right.segments⟩

instance (left right : Path) : Decidable (left < right) :=
  inferInstanceAs (Decidable (left.segments < right.segments))

instance : Ord Path := ⟨fun left right => compareOfLessAndEq left right⟩

end Path

end Statechart
