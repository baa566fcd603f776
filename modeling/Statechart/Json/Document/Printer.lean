import Statechart.Json.Document.Basic

/-!
# From document to text

A document is written without any blanks (`Json.Document.compact`) or with each
item and member on a line of its own, indented by two blanks for each level
(`Json.Document.pretty`).
-/

namespace Statechart

namespace Json

/-- How a character is written within a string: quotes, backslashes and control
characters are escaped, all others stand for themselves. -/
def escape (char : Char) : List Char :=
  if char = '"' then ['\\', '"']
  else if char = '\\' then ['\\', '\\']
  else if char = '\x08' then ['\\', 'b']
  else if char = '\x0c' then ['\\', 'f']
  else if char = '\n' then ['\\', 'n']
  else if char = '\r' then ['\\', 'r']
  else if char = '\t' then ['\\', 't']
  else if char.toNat < 0x20 then
    ['\\', 'u', '0', '0', Nat.digitChar (char.toNat / 16), Nat.digitChar (char.toNat % 16)]
  else [char]

/-- A string between its quotes. -/
def quoted (text : String) : List Char := '"' :: (text.toList.flatMap escape ++ ['"'])

namespace Document

/-- A string between its quotes. One that is not whole has no text and is written
as an empty string. -/
def spelled (text : Option String) : List Char := quoted (text.getD "")

/-- The text of `true` or `false`. -/
def boolText (value : Bool) : List Char :=
  if value then ['t', 'r', 'u', 'e'] else ['f', 'a', 'l', 's', 'e']

mutual

/-- The text of a document, without blanks. -/
def compactText : Document → List Char
  | .null => ['n', 'u', 'l', 'l']
  | .bool value => boolText value
  | .number literal => literal
  | .string text => spelled text
  | .array [] => ['[', ']']
  | .array (item :: rest) => '[' :: (item.compactText ++ (compactItems rest ++ [']']))
  | .object [] => ['\x7b', '\x7d']
  | .object ((key, value) :: rest) =>
    '\x7b' :: (spelled key ++ ':' :: (value.compactText ++ (compactMembers rest ++ ['\x7d'])))

/-- The texts of the items after the first, each after a comma. -/
def compactItems : List Document → List Char
  | [] => []
  | item :: rest => ',' :: (item.compactText ++ compactItems rest)

/-- The texts of the members after the first, each after a comma. -/
def compactMembers : List (Option String × Document) → List Char
  | [] => []
  | (key, value) :: rest =>
    ',' :: (spelled key ++ ':' :: (value.compactText ++ compactMembers rest))

end

/-- The beginning of a line at a level. -/
def newline (level : Nat) : List Char := '\n' :: List.replicate (2 * level) ' '

mutual

/-- The text of a document at a level, with a line for each item and member. -/
def prettyText (level : Nat) : Document → List Char
  | .null => ['n', 'u', 'l', 'l']
  | .bool value => boolText value
  | .number literal => literal
  | .string text => spelled text
  | .array [] => ['[', ']']
  | .array (item :: rest) =>
    '[' :: (newline (level + 1) ++ (item.prettyText (level + 1)
      ++ (prettyItems level rest ++ (newline level ++ [']']))))
  | .object [] => ['\x7b', '\x7d']
  | .object ((key, value) :: rest) =>
    '\x7b' :: (newline (level + 1) ++ (spelled key ++ ':' :: ' ' :: (value.prettyText (level + 1)
      ++ (prettyMembers level rest ++ (newline level ++ ['\x7d'])))))

/-- The lines of the items after the first, each after a comma. -/
def prettyItems (level : Nat) : List Document → List Char
  | [] => []
  | item :: rest =>
    ',' :: (newline (level + 1) ++ (item.prettyText (level + 1) ++ prettyItems level rest))

/-- The lines of the members after the first, each after a comma. -/
def prettyMembers (level : Nat) : List (Option String × Document) → List Char
  | [] => []
  | (key, value) :: rest =>
    ',' :: (newline (level + 1) ++ (spelled key ++ ':' :: ' ' :: (value.prettyText (level + 1)
      ++ prettyMembers level rest)))

end

/-- **A document on one line**, without blanks. -/
def compact (document : Document) : String := String.ofList document.compactText

/-- **A document over several lines**, indented by two blanks for each level. -/
def pretty (document : Document) : String := String.ofList (document.prettyText 0)

end Document

end Json

end Statechart
