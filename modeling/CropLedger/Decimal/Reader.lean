import CropLedger.Decimal.Basic
import CropLedger.Binary64.Shortest

/-!
# Reading decimals

A decimal is written with an optional sign and at most one point. Digits beyond the 28th place,
and digits after the point that no longer fit 96 bits, are rounded away at that place, halves up;
digits before the point have to fit. A text may also end in an exponent.

* `Decimal.readPlain?`: the form without an exponent;
* `Decimal.read?`: either form;
* `Decimal.ofReal?`: the decimal of a double, by its digits.
-/

namespace CropLedger.Decimal

/-- What has been read of a number. -/
structure Progress where
  coefficient : Nat
  scale : Nat
  afterPoint : Bool
  anyDigit : Bool

/-- Digits and the underscores between them. -/
def isTail (text : List Char) : Bool :=
  text.all fun c => c = '_' || (Digits.decimal? c).isSome

/-- Ends a number by rounding at a digit that no longer fits. Where rounding up overflows, one
more place is given up. -/
def roundOff? (p : Progress) (digit : Nat) (rest : List Char) : Option (Nat × Nat) :=
  if ¬isTail rest then none
  else
    let up := if 5 ≤ digit then p.coefficient + 1 else p.coefficient
    if up < Nat.pow 2 96 then some (up, p.scale)
    else if p.scale = 0 then none
    else some ((up + 4) / 10, p.scale - 1)

/-- Reads the digits of a number after its sign: coefficient and scale. -/
def readDigits? : Progress → List Char → Option (Nat × Nat)
  | p, [] => if p.anyDigit then some (p.coefficient, p.scale) else none
  | p, c :: rest =>
    let full := p.afterPoint && 28 ≤ p.scale
    match Digits.decimal? c with
    | some digit =>
      let next := p.coefficient * 10 + digit
      if full then roundOff? p digit rest
      else if Nat.pow 2 96 ≤ next then (if p.afterPoint then roundOff? p digit rest else none)
      else
        readDigits? ⟨next, if p.afterPoint then p.scale + 1 else 0, p.afterPoint, true⟩ rest
    | none =>
      if c = '.' ∧ ¬p.afterPoint then readDigits? { p with afterPoint := true } rest
      else if c = '_' ∧ p.anyDigit then
        if full then roundOff? p 0 rest else readDigits? p rest
      else none

/-- Reads the digits of a number that starts here. -/
def readMagnitude? (text : List Char) : Option (Nat × Nat) := readDigits? ⟨0, 0, false, false⟩ text

/-- Reads the form without an exponent. -/
def readPlain? (text : List Char) : Option Decimal :=
  match text with
  | '-' :: rest => do let (n, scale) ← readMagnitude? rest; of? (-(n : Int)) scale
  | '+' :: rest => do let (n, scale) ← readMagnitude? rest; of? n scale
  | text => do let (n, scale) ← readMagnitude? text; of? n scale

/-- A number of 32 bits, with an optional plus. -/
def readPower? (text : List Char) : Option Nat := do
  let n ← Digits.readDecimal? (match text with | '+' :: rest => rest | text => text)
  if n < Nat.pow 2 32 then some n else none

/-- A decimal times a power of ten: places are given up first, then zeros are added. -/
def timesPower? (d : Decimal) (power : Nat) : Option Decimal :=
  if power ≤ d.scale then of? d.coefficient (d.scale - power)
  else if power ≤ 28 then of? (d.coefficient * Nat.pow 10 (power - d.scale)) 0
  else none

/-- Reads the form with an exponent. -/
def readScientific? (text : List Char) : Option Decimal :=
  let isMark : Char → Bool := fun c => c = 'e' || c = 'E'
  match text.dropWhile (! isMark ·) with
  | _ :: '-' :: power => do
    let d ← readPlain? (text.takeWhile (! isMark ·))
    of? d.coefficient (d.scale + (← readPower? power))
  | _ :: power => do
    let d ← readPlain? (text.takeWhile (! isMark ·))
    timesPower? d (← readPower? power)
  | [] => none

/-- Reads a decimal. -/
def read? (text : String) : Option Decimal :=
  readPlain? text.toList <|> readScientific? text.toList

/-- The decimal of a double, through its shortest digits. -/
def ofReal? (negative : Bool) (x : Binary64) : Option Decimal :=
  readPlain? (if negative then '-' :: x.positional else x.positional)

/-- The decimal of a whole number that fits. -/
def ofInt? (n : Int) : Option Decimal := of? n 0

end CropLedger.Decimal
