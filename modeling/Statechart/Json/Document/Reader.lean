import Statechart.Json.Document.Basic

/-!
# From text to document

`Json.Document.ofText?` reads a text: the text is cut into tokens, and the
tokens are read one by one. A `Reader` holds the arrays and objects that are
still open, innermost first, and says what may come next.
-/

namespace Statechart

namespace Json

/-- An array or object that is open, around a value that is being read. -/
inductive Frame where
  /-- The items before it, the last one first. -/
  | array (before : List Document)
  /-- The members before it, the last one first, and its own name. -/
  | object (before : List (Option String × Document)) (name : Option String)

/-- **The state of reading**, named for what comes next. -/
inductive Reader where
  /-- A value. -/
  | value (frames : List Frame)
  /-- The first item of an array, or its end. -/
  | firstItem (frames : List Frame)
  /-- After an item: a comma or the end of the array. -/
  | afterItem (items : List Document) (frames : List Frame)
  /-- The first name in an object, or its end. -/
  | firstKey (frames : List Frame)
  /-- A name in an object. -/
  | key (members : List (Option String × Document)) (frames : List Frame)
  /-- The colon after a name. -/
  | colon (members : List (Option String × Document)) (name : Option String) (frames : List Frame)
  /-- After a member: a comma or the end of the object. -/
  | afterMember (members : List (Option String × Document)) (frames : List Frame)
  /-- Nothing. -/
  | finished (document : Document)

namespace Reader

/-- A value is complete, and takes its place in what is around it. -/
def complete (document : Document) : List Frame → Reader
  | [] => .finished document
  | .array before :: frames => .afterItem (document :: before) frames
  | .object before name :: frames => .afterMember ((name, document) :: before) frames

/-- A token that begins a value. -/
def begin? (frames : List Frame) : Token → Option Reader
  | .null => some (complete .null frames)
  | .bool holds => some (complete (.bool holds) frames)
  | .number literal => some (complete (.number literal) frames)
  | .string text => some (complete (.string text) frames)
  | .openArray => some (.firstItem frames)
  | .openObject => some (.firstKey frames)
  | .closeArray | .closeObject | .comma | .colon => none

/-- Reads one token; none where it may not come. -/
def step? (reader : Reader) (token : Token) : Option Reader :=
  match reader, token with
  | .value frames, _ => begin? frames token
  | .firstItem frames, .closeArray => some (complete (.array []) frames)
  | .firstItem frames, _ => begin? (.array [] :: frames) token
  | .afterItem items frames, .comma => some (.value (.array items :: frames))
  | .afterItem items frames, .closeArray => some (complete (.array items.reverse) frames)
  | .firstKey frames, .closeObject => some (complete (.object []) frames)
  | .firstKey frames, .string name => some (.colon [] name frames)
  | .key members frames, .string name => some (.colon members name frames)
  | .colon members name frames, .colon => some (.value (.object members name :: frames))
  | .afterMember members frames, .comma => some (.key members frames)
  | .afterMember members frames, .closeObject =>
    some (complete (.object members.reverse) frames)
  | _, _ => none

/-- The document, if it is complete. -/
def finish? : Reader → Option Document
  | .finished document => some document
  | _ => none

end Reader

namespace Document

/-- The document that tokens make. -/
def ofTokens? (tokens : List Token) : Option Document :=
  (tokens.foldlM Reader.step? (.value [])).bind Reader.finish?

/-- **The document of a text**; none where the text is no JSON. -/
def ofText? (text : String) : Option Document :=
  (Token.ofText? text.toList).bind ofTokens?

end Document

/-- The value of a text; none where the text is no JSON, nests too deep, or holds
a number out of range or half a character. -/
def ofText? (text : String) : Option Json :=
  (Document.ofText? text).bind (Document.value? Document.deepest)

end Json

end Statechart
