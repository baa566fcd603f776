import Statechart.Json.Basic

/-!
# The tokens of a JSON text

A JSON text is cut into brackets, separators, words, numbers and strings, with
blanks between them. `Json.Token.ofText?` reads a text one character at a time:
a `Lexer` holds the token that is under way and those already finished.

A string may contain escapes for halves of characters beyond U+FFFF. Two
matching halves in a row make one character; a half that stands alone makes the
string one that no text is equal to, though its form is right.
-/

namespace Statechart

namespace Json

/-- **The smallest meaningful pieces of a JSON text.** -/
inductive Token where
  | openArray
  | closeArray
  | openObject
  | closeObject
  | comma
  | colon
  | null
  | bool (value : Bool)
  /-- A number, as it is written. -/
  | number (literal : List Char)
  /-- A string, unless one of its characters is only half there. -/
  | string (text : Option String)
deriving DecidableEq, Repr

/-! ## Strings under way -/

/-- **A string under way**: its characters, the last one first. -/
structure Spelling where
  /-- The characters so far, the last one first. -/
  reversed : List Char := []
  /-- The first half of a character whose second half must come next. -/
  half : Option Nat := none
  /-- Whether some character has only one half. -/
  broken : Bool := false
deriving DecidableEq, Repr

namespace Spelling

/-- Whether a 16-bit unit is the first half of a character. -/
def isFirstHalf (unit : Nat) : Bool := 0xD800 ≤ unit && unit < 0xDC00

/-- Whether a 16-bit unit is the second half of a character. -/
def isSecondHalf (unit : Nat) : Bool := 0xDC00 ≤ unit && unit < 0xE000

/-- The character of two halves. -/
def joinHalves (first second : Nat) : Char :=
  Char.ofNat (0x10000 + (first - 0xD800) * 0x400 + (second - 0xDC00))

/-- A character follows. -/
def push (spelling : Spelling) (char : Char) : Spelling :=
  { reversed := char :: spelling.reversed
    half := none
    broken := spelling.broken || spelling.half.isSome }

/-- A character follows that is given by a 16-bit unit. -/
def pushUnit (spelling : Spelling) (unit : Nat) : Spelling :=
  match spelling.half with
  | some first =>
    if isSecondHalf unit then
      { spelling with reversed := joinHalves first unit :: spelling.reversed, half := none }
    else { spelling with half := none, broken := true }
  | none =>
    if isFirstHalf unit then { spelling with half := some unit }
    else if isSecondHalf unit then { spelling with broken := true }
    else spelling.push (Char.ofNat unit)

/-- The text that was spelt, if all its characters are whole. -/
def text? (spelling : Spelling) : Option String :=
  if spelling.broken || spelling.half.isSome then none
  else some (String.ofList spelling.reversed.reverse)

end Spelling

/-! ## Reading character by character -/

/-- How far a number has come. -/
inductive NumberPhase where
  /-- A minus sign: a digit must follow. -/
  | sign
  /-- A zero in front, which no digit may follow. -/
  | zero
  | whole
  /-- The point: a digit must follow. -/
  | point
  | decimals
  /-- The mark of the exponent: a sign or a digit must follow. -/
  | mark
  /-- The sign of the exponent: a digit must follow. -/
  | exponentSign
  | exponent
deriving DecidableEq, Repr

namespace NumberPhase

/-- The phase after one more character, if the character belongs to the number
at all. -/
def next? (phase : NumberPhase) (char : Char) : Option NumberPhase :=
  match phase with
  | sign => if char = '0' then some zero else if char.isDigit then some whole else none
  | zero =>
    if char = '.' then some point else if char = 'e' || char = 'E' then some mark else none
  | whole =>
    if char.isDigit then some whole
    else if char = '.' then some point
    else if char = 'e' || char = 'E' then some mark
    else none
  | point => if char.isDigit then some decimals else none
  | decimals =>
    if char.isDigit then some decimals
    else if char = 'e' || char = 'E' then some mark
    else none
  | mark =>
    if char.isDigit then some exponent
    else if char = '+' || char = '-' then some exponentSign
    else none
  | exponentSign | exponent => if char.isDigit then some exponent else none

/-- Whether a number may end here. -/
def isComplete : NumberPhase → Bool
  | zero | whole | decimals | exponent => true
  | sign | point | mark | exponentSign => false

end NumberPhase

/-- The token that is under way. -/
inductive Pending where
  /-- None. -/
  | nothing
  /-- A word, with the characters it still needs. -/
  | word (missing : List Char) (token : Token)
  /-- A number, the last character first. -/
  | number (phase : NumberPhase) (reversed : List Char)
  /-- A string between its quotes. -/
  | string (spelling : Spelling)
  /-- A string, just after a backslash. -/
  | escape (spelling : Spelling)
  /-- A string, within the hexadecimal digits of an escape: those still to come,
  and the value of the ones before. -/
  | unit (spelling : Spelling) (missing : Nat) (value : Nat)
deriving DecidableEq, Repr

/-- **The state of reading**: the finished tokens, the last one first, and the
one under way. -/
structure Lexer where
  /-- The finished tokens, the last one first. -/
  finished : List Token := []
  /-- The token under way. -/
  pending : Pending := .nothing
deriving DecidableEq, Repr

/-- The blanks that may stand between tokens. -/
def isBlank (char : Char) : Bool := char = ' ' || char = '\t' || char = '\n' || char = '\r'

/-- The character that a one-letter escape stands for. -/
def escaped? : Char → Option Char
  | '"' => some '"'
  | '\\' => some '\\'
  | '/' => some '/'
  | 'b' => some '\x08'
  | 'f' => some '\x0c'
  | 'n' => some '\n'
  | 'r' => some '\r'
  | 't' => some '\t'
  | _ => none

/-- The value of a hexadecimal digit of either case. -/
def hexValue? (char : Char) : Option Nat :=
  if '0' ≤ char ∧ char ≤ '9' then some (char.toNat - '0'.toNat)
  else if 'a' ≤ char ∧ char ≤ 'f' then some (char.toNat - 'a'.toNat + 10)
  else if 'A' ≤ char ∧ char ≤ 'F' then some (char.toNat - 'A'.toNat + 10)
  else none

namespace Lexer

/-- A token is finished. -/
def emit (lexer : Lexer) (token : Token) : Lexer := ⟨token :: lexer.finished, .nothing⟩

/-- Reads a character that begins a token, or a blank. -/
def begin? (lexer : Lexer) (char : Char) : Option Lexer :=
  if isBlank char then some { lexer with pending := .nothing }
  else match char with
    | '[' => some (lexer.emit .openArray)
    | ']' => some (lexer.emit .closeArray)
    | '{' => some (lexer.emit .openObject)
    | '}' => some (lexer.emit .closeObject)
    | ',' => some (lexer.emit .comma)
    | ':' => some (lexer.emit .colon)
    | '"' => some { lexer with pending := .string {} }
    | 'n' => some { lexer with pending := .word ['u', 'l', 'l'] .null }
    | 't' => some { lexer with pending := .word ['r', 'u', 'e'] (.bool true) }
    | 'f' => some { lexer with pending := .word ['a', 'l', 's', 'e'] (.bool false) }
    | '-' => some { lexer with pending := .number .sign ['-'] }
    | '0' => some { lexer with pending := .number .zero ['0'] }
    | _ =>
      if char.isDigit then some { lexer with pending := .number .whole [char] } else none

/-- Reads one character; none where the text is no JSON. -/
def step? (lexer : Lexer) (char : Char) : Option Lexer :=
  match lexer.pending with
  | .nothing => lexer.begin? char
  | .word missing token =>
    match missing with
    | [] => none
    | [last] => if char = last then some (lexer.emit token) else none
    | first :: rest =>
      if char = first then some { lexer with pending := .word rest token } else none
  | .number phase reversed =>
    match phase.next? char with
    | some next => some { lexer with pending := .number next (char :: reversed) }
    | none =>
      if phase.isComplete then (lexer.emit (.number reversed.reverse)).begin? char else none
  | .string spelling =>
    if char = '"' then some (lexer.emit (.string spelling.text?))
    else if char = '\\' then some { lexer with pending := .escape spelling }
    else if char.toNat < 0x20 then none
    else some { lexer with pending := .string (spelling.push char) }
  | .escape spelling =>
    if char = 'u' then some { lexer with pending := .unit spelling 4 0 }
    else (escaped? char).map fun meant => { lexer with pending := .string (spelling.push meant) }
  | .unit spelling missing value =>
    (hexValue? char).map fun digit =>
      if missing ≤ 1 then
        { lexer with pending := .string (spelling.pushUnit (value * 16 + digit)) }
      else { lexer with pending := .unit spelling (missing - 1) (value * 16 + digit) }

/-- The tokens of a text that ends here; none if it ends within a token. -/
def finish? (lexer : Lexer) : Option (List Token) :=
  match lexer.pending with
  | .nothing => some lexer.finished.reverse
  | .number phase reversed =>
    if phase.isComplete then some (lexer.emit (.number reversed.reverse)).finished.reverse
    else none
  | .word _ _ | .string _ | .escape _ | .unit _ _ _ => none

end Lexer

/-- **The tokens of a text**; none where it cannot be cut into tokens. -/
def Token.ofText? (text : List Char) : Option (List Token) :=
  (text.foldlM Lexer.step? {}).bind Lexer.finish?

end Json

end Statechart
