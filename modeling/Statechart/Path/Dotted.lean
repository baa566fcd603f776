import Statechart.Error
import Statechart.Path.Basic

/-!
# Paths as dotted text

In text the ids of a path are separated by dots. Reading is lenient or strict:
`Path.ofDotted` drops the empty pieces between neighbouring dots, while
`Path.ofExactDotted` accepts only a text in which every piece is an id.
-/

namespace Statechart

namespace Dotted

/-- The pieces between the dots of a text: one more than there are dots. -/
def pieces : List Char → List (List Char)
  | [] => [[]]
  | char :: rest =>
    if char = '.' then [] :: pieces rest
    else match pieces rest with
      | [] => [[char]]
      | first :: others => (char :: first) :: others

/-- Pieces with a dot between each two of them. -/
def join : List (List Char) → List Char
  | [] => []
  | [piece] => piece
  | piece :: next :: others => piece ++ '.' :: join (next :: others)

end Dotted

/-- Whether a text has a dot in it, which no id may have. -/
def hasDot (text : String) : Bool := text.toList.contains '.'

/-- Whether a text can be the id of a state: it is not empty and has no dot. -/
def isStateId (text : String) : Bool := !text.isEmpty && !hasDot text

namespace Path

/-- The ids with a dot between each two of them; the root is the empty text. -/
def dotted (path : Path) : String :=
  String.ofList (Dotted.join (path.segments.map String.toList))

/-- How a path is called in messages: the root has a name of its own. -/
def label (path : Path) : String := if path.isRoot then "machine" else path.dotted

/-- The path that a dotted text means, empty pieces left out. -/
def ofDotted (text : String) : Path :=
  ⟨((Dotted.pieces text.toList).filter (!·.isEmpty)).map String.ofList⟩

/-- The path that a dotted text means, if every piece of the text is an id. -/
def ofExactDotted (text : String) : Except MachineError Path :=
  let pieces := Dotted.pieces text.toList
  if pieces.any (·.isEmpty) then .error (.unknownState text)
  else .ok ⟨pieces.map String.ofList⟩

/-- Whether a path lies at or below the one a dotted text means. -/
def isWithin (path : Path) (outer : String) : Bool := path.startsWith (ofDotted outer)

end Path

end Statechart
