import CropLedger.Text.Digits

/-!
# Decimals

Prices and quantities: a signed number of up to 96 bits with a scale of up to 28 places. The
scale is part of the value, so `1.5` and `1.50` differ.

What is read from a text or from the store has no sign if it is zero. A calculation can end in a
zero below zero, which is written with its sign.

* `Decimal.of?`: the decimal of a coefficient and scale that fit;
* `Decimal.chars`: the written form, which shows every place;
* `SignedDecimal`: a decimal whose zero can have a sign.
-/

namespace CropLedger

/-- The number `coefficient * 10 ^ (-scale)`. -/
structure Decimal where
  coefficient : Int
  scale : Nat
  bounded : coefficient.natAbs < Nat.pow 2 96 ∧ scale ≤ 28
  deriving DecidableEq

namespace Decimal

/-- The decimal of a coefficient and scale that fit. -/
def of? (coefficient : Int) (scale : Nat) : Option Decimal :=
  if h : coefficient.natAbs < Nat.pow 2 96 ∧ scale ≤ 28 then some ⟨coefficient, scale, h⟩ else none

/-- Whether the value is below zero. -/
def isNegative (d : Decimal) : Bool := d.coefficient < 0

/-- Whether the value is above zero. -/
def isPositive (d : Decimal) : Bool := 0 < d.coefficient

/-- The digits of a number with a point before the last `scale` of them. -/
def withPoint (n scale : Nat) : List Char :=
  if scale = 0 then Digits.shortest n
  else
    Digits.shortest (n / Nat.pow 10 scale) ++ '.' :: Digits.fixed 10 scale n

/-- The written form, with all digits of the scale. -/
def chars (d : Decimal) : List Char :=
  (if d.coefficient < 0 then ['-'] else []) ++ withPoint d.coefficient.natAbs d.scale

/-- The written form as a text. -/
def toText (d : Decimal) : String := String.ofList d.chars

instance : ToString Decimal := ⟨toText⟩

end Decimal

/-! ### Zeros with a sign -/

/-- A decimal whose sign stands beside its magnitude, so that there are two zeros of each scale. -/
structure SignedDecimal where
  negative : Bool
  magnitude : Nat
  scale : Nat
  bounded : magnitude < Nat.pow 2 96 ∧ scale ≤ 28
  deriving DecidableEq

namespace SignedDecimal

/-- The written form: a zero shows its sign, too. -/
def chars (d : SignedDecimal) : List Char :=
  (if d.negative then ['-'] else []) ++ Decimal.withPoint d.magnitude d.scale

/-- The written form as a text. -/
def toText (d : SignedDecimal) : String := String.ofList d.chars

/-- The decimal of the same value. -/
def plain (d : SignedDecimal) : Decimal where
  coefficient := if d.negative then -(d.magnitude : Int) else d.magnitude
  scale := d.scale
  bounded := by
    have h := d.bounded
    cases d.negative <;> simpa using h

/-- Whether the decimal is no zero with a sign. -/
def IsPlain (d : SignedDecimal) : Prop := d.negative = true → d.magnitude ≠ 0

instance (d : SignedDecimal) : Decidable d.IsPlain := inferInstanceAs (Decidable (_ → _))

end SignedDecimal

/-- A decimal with its sign apart. -/
def Decimal.signed (d : Decimal) : SignedDecimal :=
  ⟨d.coefficient < 0, d.coefficient.natAbs, d.scale, d.bounded⟩

end CropLedger
