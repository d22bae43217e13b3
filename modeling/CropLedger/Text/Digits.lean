/-!
# Digits

Numbers as runs of digits: the shortest decimal form, forms of a fixed width in any base up to
sixteen, and the value that a run of digits stands for.

* `shortest`, `fixed`, `padded`: the forms of a number;
* `value`: what a run of digits stands for;
* `length_fixed`: a fixed form has exactly its width.
-/

namespace CropLedger.Digits

/-- The digit of a value below sixteen, in lower case. -/
def char (d : Nat) : Char :=
  if d < 10 then Char.ofNat (48 + d) else Char.ofNat (87 + d)

/-- The value of a decimal digit. -/
def decimal? (c : Char) : Option Nat :=
  if '0' ≤ c ∧ c ≤ '9' then some (c.toNat - 48) else none

/-- The value of a hexadecimal digit of either case. -/
def hex? (c : Char) : Option Nat :=
  if '0' ≤ c ∧ c ≤ '9' then some (c.toNat - 48)
  else if 'a' ≤ c ∧ c ≤ 'f' then some (c.toNat - 87)
  else if 'A' ≤ c ∧ c ≤ 'F' then some (c.toNat - 55)
  else none

/-- The decimal form without leading zeros. -/
def shortest (n : Nat) : List Char := Nat.toDigits 10 n

/-- The last `width` digits of a number in a base, most significant first. -/
def fixed (base : Nat) : Nat → Nat → List Char
  | 0, _ => []
  | width + 1, n => fixed base width (n / base) ++ [char (n % base)]

/-- The decimal form, filled up with zeros to at least `width` digits. -/
def padded (width n : Nat) : List Char :=
  List.replicate (width - (shortest n).length) '0' ++ shortest n

/-- The number that a run of digit values stands for, after a number already read. -/
def valueFrom (base : Nat) : Nat → List Nat → Nat
  | seen, [] => seen
  | seen, d :: ds => valueFrom base (seen * base + d) ds

/-- The number that a run of digit values stands for. -/
def value (base : Nat) (ds : List Nat) : Nat := valueFrom base 0 ds

/-- The values of the decimal digits at the front of a text, and what follows them. -/
def takeDecimal : List Char → List Nat × List Char
  | [] => ([], [])
  | c :: rest =>
    match decimal? c with
    | some d => let (ds, after) := takeDecimal rest; (d :: ds, after)
    | none => ([], c :: rest)

/-- A text of nothing but decimal digits, at least one. -/
def readDecimal? (text : List Char) : Option Nat :=
  match takeDecimal text with
  | ([], _) => none
  | (ds, []) => some (value 10 ds)
  | _ => none

theorem length_fixed (base width n : Nat) : (fixed base width n).length = width := by
  induction width generalizing n with
  | zero => rfl
  | succ w ih => simp [fixed, ih]

theorem hex?_char : ∀ d, d < 16 → hex? (char d) = some d := by decide

theorem decimal?_char : ∀ d, d < 10 → decimal? (char d) = some d := by decide

theorem valueFrom_append (base seen : Nat) (ds : List Nat) (d : Nat) :
    valueFrom base seen (ds ++ [d]) = valueFrom base seen ds * base + d := by
  induction ds generalizing seen with
  | nil => rfl
  | cons a ds ih => simp [valueFrom, ih]

end CropLedger.Digits
