import CropLedger.Decimal.Basic
import CropLedger.Binary64.Basic

/-!
# Decimals in the store

The store keeps a decimal as the nearest double and reads a decimal back from the double, so
trailing zeros go and about fifteen digits stay. The reading takes the double's mantissa over to
a power of ten one factor at a time, then gives up places until the digits are those of a double.

* `Decimal.stored`: what is read back of a decimal that was written.
-/

namespace CropLedger.Decimal

/-- Takes out halves: a factor two of the mantissa pays for one, else a factor five, as long as
there is room, else the last bit is lost. -/
def takeHalves : Nat → Nat → Int → Nat × Int
  | 0, m, power => (m, power)
  | halves + 1, m, power =>
    if m % 2 = 0 then takeHalves halves (m / 2) (power + 1)
    else if 5 * m < Nat.pow 2 96 then takeHalves halves (m * 5) power
    else takeHalves halves (m / 2) (power + 1)

/-- Takes in doublings: by doubling the mantissa as long as there is room, else a fifth of it is
kept against a power of ten. -/
def takeDoublings : Nat → Nat → Int → Nat × Int
  | 0, m, power => (m, power)
  | doublings + 1, m, power =>
    if m < Nat.pow 2 95 then takeDoublings doublings (m * 2) (power - 1)
    else takeDoublings doublings (m / 5) power

/-- A number without its last digit, rounded half up. -/
def dropDigit (m : Nat) : Nat := m / 10 + (if 5 ≤ m % 10 then 1 else 0)

/-- Gives up places until 28 are left; nothing left is zero. -/
def cutPlaces : Nat → Nat → Nat × Nat
  | 0, m => (m, 0)
  | places + 1, m =>
    if places + 1 ≤ 28 then (m, places + 1)
    else if dropDigit m = 0 then (0, 0)
    else cutPlaces places (dropDigit m)

/-- Gives up places until the digits fit a mantissa. -/
def fitMantissa : Nat → Nat → Nat × Nat
  | 0, m => (m, 0)
  | places + 1, m => if Nat.pow 2 52 ≤ m then fitMantissa places (dropDigit m) else (m, places + 1)

/-- Gives up places that hold zero. -/
def dropZeros : Nat → Nat → Nat × Nat
  | 0, m => (m, 0)
  | places + 1, m => if m % 10 = 0 then dropZeros places (m / 10) else (m, places + 1)

/-- Coefficient and scale of the decimal read from a double. -/
def ofDouble (x : Binary64) : Nat × Nat :=
  if x.mantissa = 0 then (0, 0)
  else
    let (m, power) :=
      if x.exponent < 0 then takeHalves (-x.exponent).toNat x.mantissa x.exponent
      else takeDoublings x.exponent.toNat x.mantissa x.exponent
    if 0 ≤ power then (m * Nat.pow 10 power.toNat, 0)
    else
      let (m, places) := cutPlaces (-power).toNat m
      let (m, places) := fitMantissa places m
      dropZeros places m

/-- The double nearest to the absolute value of a decimal. -/
def toDouble (d : Decimal) : Binary64 := Binary64.nearest d.coefficient.natAbs (Nat.pow 10 d.scale)

theorem natAbs_signed (negative : Bool) (n : Nat) :
    (if negative then -(n : Int) else n).natAbs = n := by
  cases negative <;> simp

/-- A sign with a coefficient and scale, at most the largest coefficient and scale. -/
def saturated (negative : Bool) (coefficient scale : Nat) : Decimal :=
  let n := min coefficient (Nat.pow 2 96 - 1)
  ⟨if negative then -n else n, min scale 28, by
    rw [natAbs_signed]
    exact Nat.lt_of_le_of_lt (Nat.min_le_right _ _) (by decide), Nat.min_le_right _ _⟩

/-- What the store gives back of a decimal. -/
def stored (d : Decimal) : Decimal :=
  let (n, scale) := ofDouble d.toDouble
  saturated d.isNegative n scale

/-- The store gives no value back below zero that was not below zero before. -/
theorem isNegative_stored {d : Decimal} (h : d.isNegative = false) :
    d.stored.isNegative = false := by
  have hs (n scale : Nat) : (saturated false n scale).isNegative = false :=
    decide_eq_false (Int.not_lt.2 (Int.natCast_nonneg _))
  unfold stored
  rw [h]
  exact hs _ _

end CropLedger.Decimal
