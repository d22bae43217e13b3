import CropLedger.Decimal.Basic
import CropLedger.Binary64.Shortest

/-!
# Decimals in reports

A report shows a decimal as a double: the whole part and the fraction are rounded apart, added,
and rounded once more at the places of the scale.

* `Decimal.cellText`: the number as it is shown.
-/

namespace CropLedger.Decimal

/-- The double that a report shows for the absolute value of a decimal. -/
def cellMagnitude (d : Decimal) : Binary64 :=
  let n := d.coefficient.natAbs
  let unit := Nat.pow 10 d.scale
  if d.scale = 0 then Binary64.ofNat n
  else if n % unit = 0 then Binary64.ofNat (n / unit)
  else
    let scale := Binary64.ofNat unit
    let fraction := (Binary64.ofNat (n % unit)).div scale
    ((((Binary64.ofNat (n / unit)).add fraction).mul scale).round).div scale

/-- The number in a cell, in its shortest form without an exponent. -/
def cellText (d : Decimal) : String :=
  String.ofList ((if d.isNegative then ['-'] else []) ++ d.cellMagnitude.positional)

end CropLedger.Decimal
