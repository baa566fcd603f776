import Statechart.Json.Conversion
import Statechart.Json.Document.Basic
import Statechart.Path.Dotted

/-!
# Paths in JSON

A path that names a place in a tree is a string, its dotted text. A path that is
active has a nested form: its innermost id, wrapped once for each id around it
in an object with that id as its only key; the root is the empty object.
-/

namespace Statechart

/-- The object with a single member. -/
def Json.singleton (key : String) (value : Json) : Json := .object (KeyMap.empty.insert key value)

open Json (Document)

namespace Path

/-- A path is read from its dotted text. -/
instance : Json.Readable Path where
  ofJson?
    | .string text => some (.ofDotted text)
    | _ => none

/-! ## The nested form -/

/-- The nested form of a list of ids. -/
def nestedIds : List String → Json
  | [] => .object .nil
  | [id] => .string id
  | id :: next :: rest => .singleton id (nestedIds (next :: rest))

/-- **The nested form of a path.** -/
def nested (path : Path) : Json := nestedIds path.segments

mutual

/-- The ids of a value that ends in the innermost id. -/
def idsOfNested? : Json → Option (List String)
  | .string id => some [id]
  | .object members => idsOfMembers? members
  | .null | .bool _ | .int _ | .float _ | .array _ => none

/-- The ids of an object that has a single member. -/
def idsOfMembers? {bound : Option String} : KeyMap Json bound → Option (List String)
  | .cons id _ inner .nil => (idsOfNested? inner).map (id :: ·)
  | .cons _ _ _ (.cons _ _ _ _) | .nil => none

end

/-- The path whose nested form a value is, if there is one. -/
def ofNested? : Json → Option Path
  | .object .nil => some root
  | value => (idsOfNested? value).map Path.mk

/-- Why a value that is no nested form cannot be read as one. -/
def notNested : String := "state value must be a string or nested single-key map"

/-! ## Documents of the nested form -/

/-- The document of the nested form of a list of ids. -/
def nestedDocumentOfIds : List String → Document
  | [] => .record []
  | [id] => .text id
  | id :: next :: rest => .record [(id, nestedDocumentOfIds (next :: rest))]

/-- The document of the nested form of a path. -/
def nestedDocument (path : Path) : Document := nestedDocumentOfIds path.segments

/-- The path whose nested form a document is, if it nests no deeper than there is
room. -/
def ofNestedDocument? (room : Nat) (document : Document) : Option Path :=
  (document.value? room).bind ofNested?

end Path

end Statechart
