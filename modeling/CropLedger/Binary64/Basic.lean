/-!
# Doubles

Non-negative doubles as exact numbers: a mantissa below 2^53 times a power of two from -1074 on.
Arithmetic is exact arithmetic on fractions followed by one rounding to the nearest double, ties
to the even mantissa. The exponent has no upper end here; `isFinite` says whether a double holds
the number.

* `roundQuotient_mul`: rounding an exact quotient changes nothing;
* `nearest`: the double nearest to a fraction;
* `add`, `mul`, `div`: exact arithmetic, rounded once.
-/

namespace CropLedger

/-- A quotient rounded to the nearest integer, ties to even. -/
def roundQuotient (num den : Nat) : Nat :=
  let q := num / den
  let r := num % den
  if 2 * r < den then q
  else if 2 * r = den then q + q % 2
  else q + 1

/-- The double `mantissa * 2 ^ exponent`. -/
structure Binary64 where
  mantissa : Nat
  exponent : Int
  deriving DecidableEq

namespace Binary64

/-- The number zero. -/
def zero : Binary64 := ⟨0, -1074⟩

/-- Whether the number is not too large for a double. -/
def isFinite (x : Binary64) : Bool := x.exponent ≤ 971

/-- Numerator of the exact value. -/
def num (x : Binary64) : Nat := x.mantissa * Nat.pow 2 x.exponent.toNat

/-- Denominator of the exact value. -/
def den (x : Binary64) : Nat := Nat.pow 2 (-x.exponent).toNat

/-- The largest power of two that is at most a positive fraction. -/
def floorLog (num den : Nat) : Int :=
  let guess : Int := (Nat.log2 num : Int) - Nat.log2 den
  if den * Nat.pow 2 guess.toNat ≤ num * Nat.pow 2 (-guess).toNat then guess else guess - 1

/-- The double nearest to a fraction. -/
def nearest (num den : Nat) : Binary64 :=
  if num = 0 then zero
  else
    let exponent := max (-1074) (floorLog num den - 52)
    let mantissa :=
      roundQuotient (num * Nat.pow 2 (-exponent).toNat) (den * Nat.pow 2 exponent.toNat)
    if mantissa = Nat.pow 2 53 then ⟨Nat.pow 2 52, exponent + 1⟩ else ⟨mantissa, exponent⟩

/-- The double nearest to a number. -/
def ofNat (n : Nat) : Binary64 := nearest n 1

/-- The sum. -/
def add (x y : Binary64) : Binary64 := nearest (x.num * y.den + y.num * x.den) (x.den * y.den)

/-- The product. -/
def mul (x y : Binary64) : Binary64 := nearest (x.num * y.num) (x.den * y.den)

/-- The quotient by a double that is not zero. -/
def div (x y : Binary64) : Binary64 := nearest (x.num * y.den) (x.den * y.num)

/-- The nearest whole number, halves away from zero. -/
def round (x : Binary64) : Binary64 := ofNat ((2 * x.num + x.den) / (2 * x.den))

theorem roundQuotient_mul (n den : Nat) (h : 0 < den) : roundQuotient (n * den) den = n := by
  simp [roundQuotient, Nat.mul_div_cancel n h, h]

end Binary64

end CropLedger
