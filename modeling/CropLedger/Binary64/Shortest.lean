import CropLedger.Binary64.Basic
import CropLedger.Text.Digits

/-!
# The shortest decimal form of a double

Of the decimal numbers that read back as a double, the ones with the fewest digits are taken, and
of these the nearest; where two are as near, the form says which. A decimal grid is tried for each
number of digits from one to seventeen; only the two neighbours of the double on the grid can be
hits.

* `Binary64.positional`: the form without an exponent;
* `Binary64.scientific`: the form with a point that turns to an exponent for large and small
  numbers.
-/

namespace CropLedger.Binary64

/-- The interval of numbers that read back as a double, in quarters of its last place. -/
def lowerQuarters (x : Binary64) : Nat :=
  4 * x.mantissa - (if x.mantissa = Nat.pow 2 52 ∧ -1074 < x.exponent then 1 else 2)

/-- The upper end of the interval, in quarters of the last place. -/
def upperQuarters (x : Binary64) : Nat := 4 * x.mantissa + 2

/-- Whether `digits * 10 ^ power` reads back as the double: the ends of the interval do if the
mantissa is even. -/
def readsBack (x : Binary64) (digits : Nat) (power : Int) : Bool :=
  let value := 4 * digits * Nat.pow 10 power.toNat * x.den
  let unit := Nat.pow 2 x.exponent.toNat * Nat.pow 10 (-power).toNat
  if x.mantissa % 2 = 0 then
    x.lowerQuarters * unit ≤ value && value ≤ x.upperQuarters * unit
  else x.lowerQuarters * unit < value && value < x.upperQuarters * unit

/-- The power of ten of the first digit of a fraction below one, counted down from `power`. -/
def leadingBelow : Nat → Nat → Nat → Int → Int
  | 0, _, _, power => power
  | fuel + 1, num, den, power =>
    if den ≤ num * 10 then power - 1 else leadingBelow fuel (num * 10) den (power - 1)

/-- The power of ten of the first digit. -/
def leading (x : Binary64) : Int :=
  if x.den ≤ x.num then ((Digits.shortest (x.num / x.den)).length : Int) - 1
  else leadingBelow 400 x.num x.den 0

/-- Which of two neighbours is taken that are as near. -/
inductive Tie
  | upper
  | even

/-- Whether the lower neighbour is taken. -/
def Tie.takesLower : Tie → Nat → Bool
  | .upper, _ => false
  | .even, below => below % 2 = 0

/-- The hit on the grid of a power of ten, if there is one: the nearer neighbour that reads
back. -/
def onGrid? (tie : Tie) (x : Binary64) (power : Int) : Option (Nat × Int) :=
  let num := x.num * Nat.pow 10 (-power).toNat
  let den := x.den * Nat.pow 10 power.toNat
  let below := num / den
  let above := below + 1
  match x.readsBack below power, x.readsBack above power with
  | true, true =>
    let lower := 2 * (num % den) < den || 2 * (num % den) = den && tie.takesLower below
    some (if lower then below else above, power)
  | true, false => some (below, power)
  | false, true => some (above, power)
  | false, false => none

/-- The hit on the first grid that has one. -/
def firstGrid (tie : Tie) (x : Binary64) : Nat → Int → Nat × Int
  | 0, power => (x.num * Nat.pow 10 (-power).toNat / (x.den * Nat.pow 10 power.toNat), power)
  | tries + 1, power =>
    match x.onGrid? tie power with
    | some hit => hit
    | none => x.firstGrid tie tries (power - 1)

/-- Digits without zeros at the end: the neighbour above may be a power of ten. -/
def withoutZeros : Nat → Nat → Int → Nat × Int
  | 0, digits, power => (digits, power)
  | fuel + 1, digits, power =>
    if digits % 10 = 0 then withoutZeros fuel (digits / 10) (power + 1) else (digits, power)

/-- The shortest digits and the power of ten they count. -/
def shortest (tie : Tie) (x : Binary64) : List Char × Int :=
  let (digits, power) := x.firstGrid tie 17 x.leading
  let (digits, power) := withoutZeros 17 digits power
  (Digits.shortest digits, power)

/-- Digits that count a power of ten, written without an exponent. -/
def place (digits : List Char) (power : Int) : List Char :=
  let places := (-power).toNat
  if 0 ≤ power then digits ++ List.replicate power.toNat '0'
  else if digits.length ≤ places then
    '0' :: '.' :: List.replicate (places - digits.length) '0' ++ digits
  else digits.take (digits.length - places) ++ '.' :: digits.drop (digits.length - places)

/-- The form without an exponent; whole numbers have no point. Ties go to the upper neighbour. -/
def positional (x : Binary64) : List Char :=
  if x.mantissa = 0 then ['0']
  else
    let (digits, power) := x.shortest .upper
    place digits power

/-- The form with a point: from 1e-5 up to 1e16 positional, else one digit before the point and a
signed exponent of at least two digits. Ties go to the even neighbour. -/
def scientific (x : Binary64) : List Char :=
  if x.mantissa = 0 then ['0', '.', '0']
  else
    let (digits, power) := x.shortest .even
    let exponent := power + digits.length - 1
    if -5 ≤ exponent ∧ exponent ≤ 15 then
      place digits power ++ (if 0 ≤ power then ['.', '0'] else [])
    else
      let fraction := digits.drop 1
      digits.take 1 ++ (if fraction = [] then [] else '.' :: fraction) ++
        'e' :: (if exponent < 0 then '-' else '+') :: Digits.padded 2 exponent.natAbs

end CropLedger.Binary64
