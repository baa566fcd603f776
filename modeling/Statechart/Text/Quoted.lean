import Statechart.Text.Unprintable

/-!
# Quoted text

A text for a person to read stands between quotes. Quotes and backslashes in it
are escaped by a backslash, and so are the characters that do not show: the most
common ones by a letter, all others by their hexadecimal number in braces.
-/

namespace Statechart.Text

/-- A number in hexadecimal, in lower case. -/
def hexadecimal (value : Nat) : List Char := Nat.toDigits 16 value

/-- How a character stands between quotes. -/
def shown (char : Char) : List Char :=
  if char = '\x00' then ['\\', '0']
  else if char = '\t' then ['\\', 't']
  else if char = '\r' then ['\\', 'r']
  else if char = '\n' then ['\\', 'n']
  else if char = '"' then ['\\', '"']
  else if char = '\\' then ['\\', '\\']
  else if isUnprintable char then
    '\\' :: 'u' :: '\x7b' :: (hexadecimal char.toNat ++ ['\x7d'])
  else [char]

/-- **A text between quotes.** -/
def quoted (text : String) : String :=
  String.ofList ('"' :: (text.toList.flatMap shown ++ ['"']))

end Statechart.Text
