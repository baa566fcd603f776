import Statechart.Node.Document
import Statechart.Tree.Start

/-!
# Machine definitions

A definition is what a machine is made from: a root node and perhaps the dotted
path of the state it starts in. In JSON the fields of the root stand next to the
field `startPath`, in one object.
-/

namespace Statechart

open Json (Document)

/-- **A root node and where to start.** -/
structure Definition where
  /-- The root node. -/
  root : Node
  /-- The dotted path of the state to start in; none for the default leaf. -/
  startPath : Option String
deriving DecidableEq

namespace Definition

/-- The definition that starts by default. -/
def ofRoot (root : Node) : Definition := ⟨root, none⟩

/-- The same definition with another start. -/
def withStartPath (definition : Definition) (startPath : String) : Definition :=
  { definition with startPath := some startPath }

/-- **The tree that a definition means.** The root is checked first, and then the path to
start at, every piece of which has to be an id. -/
def tree (definition : Definition) : Except MachineError Tree := do
  let tree ← Tree.ofNode definition.root
  match definition.startPath with
  | some start => tree.startingAt (← Path.ofExactDotted start)
  | none => return tree

/-! ## Definitions in JSON -/

/-- **The document of a definition.** -/
def toDocument (definition : Definition) : Document :=
  .record (definition.root.fields ++ Node.optionalField "startPath" definition.startPath)

/-- The text of a definition, over several lines. -/
def text (definition : Definition) : String := definition.toDocument.pretty

/-- The start paths among some members, in order. -/
def startPathsOf? : List (Option String × Document) → Option (List (Option String))
  | [] => some []
  | (key, value) :: rest => do
    let others ← startPathsOf? rest
    if (← key) = "startPath" then
      match value with
      | .null => return none :: others
      | .string (some text) => return some text :: others
      | _ => none
    else return others

/-- The members of an object without the start paths. -/
def rootMembers (members : List (Option String × Document)) :
    List (Option String × Document) :=
  members.filter fun member => member.1 != some "startPath"

/-- The definition that a document describes. It has to be an object with at most
one start path, and all of it has to be a value, also what is passed over. -/
def ofDocument? : Document → Option Definition
  | .object members => do
    let _ ← (Document.object members).value? Document.deepest
    let startPaths ← startPathsOf? members
    let root ← Node.draftOfMembers? Document.deepest {} (rootMembers members)
    match startPaths with
    | [] => return ⟨root.node, none⟩
    | [startPath] => return ⟨root.node, startPath⟩
    | _ => none
  | _ => none

/-- **The definition that a text describes.** -/
def ofText (text : String) : Except MachineError Definition :=
  match (Document.ofText? text).bind ofDocument? with
  | some definition => .ok definition
  | none => .error (.definition "the text does not describe a machine")

end Definition

end Statechart
