/-!
# Decimal digits

The numbers that decimal digits mean.
-/

namespace Statechart.Decimal

/-- The value of a digit. -/
def digitValue (digit : Char) : Nat := digit.toNat - '0'.toNat

/-- **The number that digits mean**, the first one counting most. -/
def value (digits : List Char) : Nat :=
  digits.foldl (fun value digit => value * 10 + digitValue digit) 0

end Statechart.Decimal
