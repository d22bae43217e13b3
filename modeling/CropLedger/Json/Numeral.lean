import CropLedger.Binary64.Basic
import CropLedger.Text.Digits

/-!
# Json numerals

A numeral is its digits before and after the point and its exponent. Whole numbers of 64 bits are
kept as they are; every other numeral stands for a double. Of its digits those that fit 64 bits
count, the rest only move the point; the number is scaled by one power of ten at a time.

* `Numeral.value?`: the number a numeral stands for, unless it is too large for a double.
-/

namespace CropLedger.Json

/-- A numeral by its parts. -/
structure Numeral where
  negative : Bool
  whole : List Nat
  fraction : List Nat
  exponent : Option Int
  deriving DecidableEq

/-- A number that a numeral stands for. -/
inductive Number
  | unsigned (n : Nat)
  | negative (n : Int)
  | real (negative : Bool) (magnitude : Binary64)

namespace Numeral

/-- The digits that still fit 64 bits after the ones seen, and how many are left over. -/
def significand : Nat → List Nat → Nat × List Nat
  | seen, [] => (seen, [])
  | seen, d :: ds =>
    if seen * 10 + d < Nat.pow 2 64 then significand (seen * 10 + d) ds else (seen, d :: ds)

/-- The double nearest to a power of ten. -/
def powerOfTen (n : Nat) : Binary64 := Binary64.ofNat (Nat.pow 10 n)

/-- A double times a power of ten, in steps of at most 308 places; none if it grows too large. -/
def scale? : Nat → Binary64 → Int → Option Binary64
  | 0, x, _ => some x
  | fuel + 1, x, power =>
    if x.mantissa = 0 then some x
    else if 308 < power then none
    else if 0 ≤ power then
      let y := x.mul (powerOfTen power.toNat)
      if y.isFinite then some y else none
    else if -308 ≤ power then some (x.div (powerOfTen (-power).toNat))
    else scale? fuel (x.div (powerOfTen 308)) (power + 308)

/-- The double that digits and an exponent stand for. -/
def magnitude? (n : Numeral) : Option Binary64 :=
  let (seen, dropped) := significand 0 n.whole
  let (seen, left) := significand seen n.fraction
  let places : Int := n.fraction.length - left.length
  scale? 8 (Binary64.ofNat seen) (dropped.length - places + n.exponent.getD 0)

/-- The number a numeral stands for. A minus before zero, or before more than 63 bits hold, gives
a double. -/
def value? (n : Numeral) : Option Number :=
  let whole := Digits.value 10 n.whole
  if n.fraction = [] ∧ n.exponent = none ∧ whole < Nat.pow 2 64 ∧
      (n.negative = true → whole ≠ 0 ∧ whole ≤ Nat.pow 2 63) then
    some (if n.negative then .negative (-(whole : Int)) else .unsigned whole)
  else n.magnitude?.map (.real n.negative)

end Numeral

end CropLedger.Json
