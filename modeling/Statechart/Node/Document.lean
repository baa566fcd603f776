import Statechart.Json.Document.Reader
import Statechart.Json.Document.Printer
import Statechart.Node.Basic

/-!
# Nodes in JSON

A node is written as an object with the fields `id`, `initial`, `states`, `on`,
`entry` and `exit`, in this order; a field that holds nothing is left out. When
one is read the fields may come in any order, but none twice; a field that is
missing holds nothing, and a field with another name is passed over, whatever it
holds. The names of children and events may repeat, and the last one counts. A
node may also be read from an array of its fields in their order, of which the
last ones may be missing.

Where an object or an array is opened for a node, its children or its
transitions, one level of the room for nesting is used up.
-/

namespace Statechart

open Json (Document)

namespace Node

/-! ## Writing -/

/-- A field that is left out if it holds nothing. -/
def optionalField (name : String) (value : Option String) : List (String × Document) :=
  match value with
  | none => []
  | some text => [(name, .text text)]

mutual

/-- The fields of a node, those that hold nothing left out. -/
def fields : Node → List (String × Document)
  | ⟨id, initial, children, transitions, entry, exit⟩ =>
    (if id.isEmpty then [] else [("id", Document.text id)])
      ++ optionalField "initial" initial
      ++ (if children.isEmpty then [] else [("states", .record (childFields children))])
      ++ (if transitions.isEmpty then []
        else [("on", .record (transitions.toList.map fun (event, target) =>
          (event, Document.text target.text)))])
      ++ optionalField "entry" entry
      ++ optionalField "exit" exit

/-- The children with their keys, each as an object. -/
def childFields {bound : Option String} : KeyMap Node bound → List (String × Document)
  | .nil => []
  | .cons key _ node rest => (key, .record node.fields) :: childFields rest

end

/-- **The document of a node.** -/
def toDocument (node : Node) : Document := .record node.fields

/-! ## Reading -/

/-- The fields of a node that have been read so far. -/
structure Draft where
  /-- The field `id`. -/
  id : Option String := none
  /-- The field `initial`, which may hold nothing. -/
  initial : Option (Option String) := none
  /-- The field `states`. -/
  children : Option (KeyMap Node) := none
  /-- The field `on`. -/
  transitions : Option (KeyMap Target) := none
  /-- The field `entry`, which may hold nothing. -/
  entry : Option (Option String) := none
  /-- The field `exit`, which may hold nothing. -/
  exit : Option (Option String) := none

namespace Draft

/-- The node of a draft: what was not read holds nothing. -/
def node (draft : Draft) : Node :=
  { id := draft.id.getD ""
    initial := draft.initial.getD none
    children := draft.children.getD .nil
    transitions := draft.transitions.getD .nil
    entry := draft.entry.getD none
    exit := draft.exit.getD none }

/-- The names of the fields, in their order. -/
def names : List String := ["id", "initial", "states", "on", "entry", "exit"]

/-- The field `initial` is read; none if it was read before. -/
def withInitial? (draft : Draft) (value : Option String) : Option Draft :=
  if draft.initial.isSome then none else some { draft with initial := some value }

/-- The field `entry` is read; none if it was read before. -/
def withEntry? (draft : Draft) (value : Option String) : Option Draft :=
  if draft.entry.isSome then none else some { draft with entry := some value }

/-- The field `exit` is read; none if it was read before. -/
def withExit? (draft : Draft) (value : Option String) : Option Draft :=
  if draft.exit.isSome then none else some { draft with exit := some value }

/-- The children are read; none if they were read before. -/
def withChildren? (draft : Draft) (children : List (String × Node)) : Option Draft :=
  if draft.children.isSome then none else some { draft with children := some (.ofList children) }

/-- The transitions are read; none if they were read before. -/
def withTransitions? (draft : Draft) (transitions : List (String × Target)) : Option Draft :=
  if draft.transitions.isSome then none
  else some { draft with transitions := some (.ofList transitions) }

/-- A field that holds a string is read. -/
def withText? (draft : Draft) (name : String) (text : Option String) : Option Draft :=
  if name = "id" then
    if draft.id.isSome then none else text.map fun id => { draft with id := some id }
  else if name = "initial" then text.bind fun text => draft.withInitial? (some text)
  else if name = "entry" then text.bind fun text => draft.withEntry? (some text)
  else if name = "exit" then text.bind fun text => draft.withExit? (some text)
  else if names.contains name then none
  else some draft

/-- A field that holds null is read. -/
def withNull? (draft : Draft) (name : String) : Option Draft :=
  if name = "initial" then draft.withInitial? none
  else if name = "entry" then draft.withEntry? none
  else if name = "exit" then draft.withExit? none
  else if names.contains name then none
  else some draft

/-- A field is read that holds what no field of a node may hold. -/
def withOther? (draft : Draft) (name : String) : Option Draft :=
  if names.contains name then none else some draft

end Draft

/-- The transitions that the members of an object declare. -/
def targetsOf? : List (Option String × Document) → Option (List (String × Target))
  | [] => some []
  | (key, .string text) :: rest => do
    return (← key, .ofText (← text)) :: (← targetsOf? rest)
  | _ :: _ => none

mutual

/-- **The node that a document describes**, if it nests no deeper than there is
room. -/
def ofDocument? (room : Nat) : Document → Option Node
  | .object members =>
    match room with
    | 0 => none
    | room + 1 => (draftOfMembers? room {} members).map Draft.node
  | .array items =>
    match room with
    | 0 => none
    | room + 1 => (draftOfItems? room {} Draft.names items).map Draft.node
  | .null | .bool _ | .number _ | .string _ => none

/-- The fields that the members of an object give, added to a draft. -/
def draftOfMembers? (room : Nat) (draft : Draft) :
    List (Option String × Document) → Option Draft
  | [] => some draft
  | (key, value) :: rest => do
    draftOfMembers? room (← draftOfField? room draft (← key) value) rest

/-- The fields that the items of an array give, added to a draft. -/
def draftOfItems? (room : Nat) (draft : Draft) (names : List String) :
    List Document → Option Draft
  | [] => some draft
  | value :: rest =>
    match names with
    | [] => none
    | name :: others => do
      draftOfItems? room (← draftOfField? room draft name value) others rest

/-- A field, added to a draft. -/
def draftOfField? (room : Nat) (draft : Draft) (name : String) : Document → Option Draft
  | .string text => draft.withText? name text
  | .null => draft.withNull? name
  | .object members =>
    if name = "states" then
      match room with
      | 0 => none
      | room + 1 => (childrenOf? room members).bind draft.withChildren?
    else if name = "on" then
      match room with
      | 0 => none
      | _ + 1 => (targetsOf? members).bind draft.withTransitions?
    else draft.withOther? name
  | .bool _ | .number _ | .array _ => draft.withOther? name

/-- The children that the members of an object describe. -/
def childrenOf? (room : Nat) :
    List (Option String × Document) → Option (List (String × Node))
  | [] => some []
  | (key, value) :: rest => do
    return (← key, ← ofDocument? room value) :: (← childrenOf? room rest)

end

/-- The node that a text describes. -/
def ofText? (text : String) : Option Node :=
  (Document.ofText? text).bind (ofDocument? Document.deepest)

/-- The text of a node, without blanks. -/
def text (node : Node) : String := node.toDocument.compact

end Node

end Statechart
