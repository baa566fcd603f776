import Statechart.Decimal
import Statechart.Json.Basic

/-!
# Numbers as JSON writes them

A number is a whole part, perhaps decimals, and perhaps a power of ten. Written
with neither decimals nor power it is a whole number, as long as it fits the
64-bit integers (from `-2^63` to `2^64 - 1`) and is not minus zero; everything
else is a floating-point number.

The digits of a floating-point number are kept as long as their number fits 64
bits, and the result is scaled by powers of ten in floating point, so it can
differ in its last bits from the float that lies nearest.
-/

namespace Statechart

namespace Json

/-- **A number as it is written.** -/
structure Numeral where
  /-- Whether it has a minus sign. -/
  negative : Bool
  /-- The digits before the point. -/
  whole : List Char
  /-- The digits after the point. -/
  decimals : List Char
  /-- The power of ten it is multiplied by, if one is written. -/
  exponent : Option Int

/-- Digits gathered into a number that fits 64 bits, times a power of ten. -/
structure Gathered where
  /-- The digits that were kept. -/
  significand : Nat
  /-- The power of ten that goes with them. -/
  exponent : Int
  /-- Whether a digit was left out because it did not fit. -/
  full : Bool

namespace Gathered

/-- A digit before the point. One that does not fit raises the power of ten, and
so do all whole digits after it. -/
def addWhole (gathered : Gathered) (digit : Char) : Gathered :=
  let next := gathered.significand * 10 + Decimal.digitValue digit
  if !gathered.full && next < UInt64.size then { gathered with significand := next }
  else { gathered with exponent := gathered.exponent + 1, full := true }

/-- A digit after the point. One that does not fit is dropped, and so are all
digits after it. -/
def addDecimal (gathered : Gathered) (digit : Char) : Gathered :=
  let next := gathered.significand * 10 + Decimal.digitValue digit
  if !gathered.full && next < UInt64.size then
    { gathered with significand := next, exponent := gathered.exponent - 1 }
  else { gathered with full := true }

end Gathered

namespace Numeral

/-- The whole digits, gathered. -/
def gatherWhole (numeral : Numeral) : Gathered :=
  numeral.whole.foldl Gathered.addWhole ⟨0, 0, false⟩

/-- All digits, gathered; the decimals begin anew with what fits. -/
def gather (numeral : Numeral) : Gathered :=
  numeral.decimals.foldl Gathered.addDecimal { numeral.gatherWhole with full := false }

/-- The largest power of ten that one multiplication or division scales by. -/
def largestPower : Nat := 308

/-- A float times a power of ten; none where the result is too large. -/
def scale (value : Float) (exponent : Int) : Option Float :=
  if exponent.natAbs ≤ largestPower then
    let power := Float.ofScientific 1 false exponent.natAbs
    if exponent < 0 then some (value / power)
    else
      let scaled := value * power
      if scaled.isInf then none else some scaled
  else if value == 0 then some value
  else if exponent > 0 then none
  else scale (value / Float.ofScientific 1 false largestPower) (exponent + largestPower)
termination_by exponent.natAbs
decreasing_by simp only [largestPower] at *; omega

/-- A float with its sign. -/
def withSign (numeral : Numeral) (value : Float) : Float :=
  if numeral.negative then -value else value

/-- The floating-point number that a numeral means; none where it is too
large. -/
def float? (numeral : Numeral) : Option Float :=
  let gathered := numeral.gather
  (scale (Float.ofNat gathered.significand)
    (gathered.exponent + numeral.exponent.getD 0)).map numeral.withSign

/-- Whether a numeral is written as a whole number. -/
def isWhole (numeral : Numeral) : Bool := numeral.decimals.isEmpty && numeral.exponent.isNone

/-- **The value of a numeral**; none where it is too large for a float. -/
def value? (numeral : Numeral) : Option Json :=
  let whole := numeral.gatherWhole
  if numeral.isWhole && !whole.full then
    let value : Int := if numeral.negative then -whole.significand else whole.significand
    if value < Int64.minValue.toInt || (numeral.negative && value == 0) then
      some (.float (numeral.withSign (Float.ofNat whole.significand)))
    else some (.int value)
  else numeral.float?.map .float

/-- The power of ten that a text such as `-12` or `+3` means. -/
def exponentOf : List Char → Int
  | '-' :: digits => -Decimal.value digits
  | '+' :: digits => Decimal.value digits
  | digits => Decimal.value digits

/-- Takes a well-formed number apart. -/
def ofLiteral (literal : List Char) : Numeral :=
  let (negative, unsigned) := match literal with
    | '-' :: rest => (true, rest)
    | rest => (false, rest)
  let (whole, rest) := unsigned.span Char.isDigit
  let (decimals, rest) := match rest with
    | '.' :: rest => rest.span Char.isDigit
    | rest => ([], rest)
  let exponent := match rest with
    | 'e' :: rest => some (exponentOf rest)
    | 'E' :: rest => some (exponentOf rest)
    | _ => none
  ⟨negative, whole, decimals, exponent⟩

end Numeral

end Json

end Statechart
