import Statechart.Json.Number
import Statechart.Json.Token

/-!
# JSON documents

A document is a JSON text without its blanks: unlike a value it keeps the order
and the repetition of members, and the spelling of numbers. Reading a document
as something else – a value, a node, a record – decides what of it counts.

`Json.Document.value?` reads one as a value. Every number must be in range,
every string whole, and the nesting no deeper than there is room; of several
members with one name the last counts.
-/

namespace Statechart

namespace Json

/-- **A JSON text as it is written.** -/
inductive Document where
  | null
  | bool (value : Bool)
  /-- A number, as it is written. -/
  | number (literal : List Char)
  /-- A string, unless one of its characters is only half there. -/
  | string (text : Option String)
  | array (items : List Document)
  /-- The members in the order of the text. -/
  | object (members : List (Option String × Document))

namespace Document

instance : Inhabited Document := ⟨.null⟩

/-- The document of a text. -/
def text (text : String) : Document := .string (some text)

/-- An object with the given members. -/
def record (members : List (String × Document)) : Document :=
  .object (members.map fun member => (some member.1, member.2))

/-- The document of a whole number. -/
def ofInt (value : Int) : Document := .number value.repr.toList

/-- The deepest nesting of arrays and objects that a value may have. -/
def deepest : Nat := 127

mutual

/-- **The value that a document means**, if it nests no deeper than there is
room. -/
def value? (room : Nat) : Document → Option Json
  | .null => some .null
  | .bool value => some (.bool value)
  | .number literal => (Numeral.ofLiteral literal).value?
  | .string text => text.map .string
  | .array items =>
    match room with
    | 0 => none
    | room + 1 => (itemValues? room items).map .array
  | .object members =>
    match room with
    | 0 => none
    | room + 1 => (memberValues? room members).map fun entries => .object (.ofList entries)

/-- The values of the items of an array. -/
def itemValues? (room : Nat) : List Document → Option (List Json)
  | [] => some []
  | item :: rest => do return (← item.value? room) :: (← itemValues? room rest)

/-- The names and values of the members of an object. -/
def memberValues? (room : Nat) :
    List (Option String × Document) → Option (List (String × Json))
  | [] => some []
  | (key, value) :: rest => do
    return (← key, ← value.value? room) :: (← memberValues? room rest)

end

/-! ## Records -/

/-- The only member with a name. -/
def soleMember? (name : String) (members : List (Option String × Document)) : Option Document :=
  match members.filter fun member => member.1 == some name with
  | [(_, value)] => some value
  | _ => none

/-- **The fields of a record**, in the order of their names. A record is an object
in which every one of the names stands once, next to any others, or an array of
the fields in order. -/
def fields? (names : List String) : Document → Option (List Document)
  | .object members =>
    if members.any (·.1.isNone) then none
    else names.mapM fun name => soleMember? name members
  | .array items => if items.length = names.length then some items else none
  | .null | .bool _ | .number _ | .string _ => none

end Document

end Json

end Statechart
