import Statechart.Path.Dotted

/-!
# Targets of transitions

A transition leads to a sibling of the state that handles the event, or to a
state given by its path from the root. In text a path is marked by a dot
between two of its ids or by a leading `#`.
-/

namespace Statechart

/-- **Where a transition leads.** -/
inductive Target where
  /-- A child of the parent of the handling state; for the root, one of its own
  children. -/
  | sibling (id : String)
  /-- The state at a path from the root. -/
  | absolute (path : Path)
deriving DecidableEq, Repr, Inhabited

namespace Target

/-- The target that a text means. -/
def ofText (text : String) : Target :=
  match text.toList with
  | '#' :: rest => .absolute (.ofDotted (String.ofList rest))
  | _ => if hasDot text then .absolute (.ofDotted text) else .sibling text

/-- The text of a target: a path gets its mark where its dots do not show it. -/
def text : Target → String
  | .sibling id => id
  | .absolute path => if path.length > 1 then path.dotted else "#" ++ path.dotted

/-- The path of the target, seen from the state that handles the event. -/
def resolveFrom (source : Path) : Target → Path
  | .sibling id => source.parentOrRoot.child id
  | .absolute path => path

end Target

end Statechart
