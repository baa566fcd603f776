/-!
# Blanks

The characters that Unicode calls white space.
-/

namespace Statechart.Text

/-- **Whether a character is white space.** -/
def isBlank (char : Char) : Bool :=
  let code := char.toNat
  (0x09 ≤ code && code ≤ 0x0D) || code == 0x20 || code == 0x85 || code == 0xA0
    || code == 0x1680 || (0x2000 ≤ code && code ≤ 0x200A) || code == 0x2028 || code == 0x2029
    || code == 0x202F || code == 0x205F || code == 0x3000

/-- A text without the blanks in front. -/
def trimLeft (text : List Char) : List Char := text.dropWhile isBlank

end Statechart.Text
