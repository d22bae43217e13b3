import CropLedger.Text.Digits

/-!
# Json values as they are written

The values that answers, messages and cached entries are made of, and their text: no blanks, the
members of an object in the order given, and escapes only where a text needs them.

* `Json.chars`: the text of a value;
* `Json.escape`: a character inside a text.
-/

namespace CropLedger

/-- A Json value to be written. -/
inductive Json
  | null
  | boolean (value : Bool)
  | number (value : Int)
  | text (value : String)
  | array (items : List Json)
  | object (members : List (String × Json))

namespace Json

/-- A character inside a text. -/
def escape (c : Char) : List Char :=
  if c = '"' then ['\\', '"']
  else if c = '\\' then ['\\', '\\']
  else if c.toNat = 8 then ['\\', 'b']
  else if c.toNat = 9 then ['\\', 't']
  else if c.toNat = 10 then ['\\', 'n']
  else if c.toNat = 12 then ['\\', 'f']
  else if c.toNat = 13 then ['\\', 'r']
  else if c.toNat < 32 then ['\\', 'u'] ++ Digits.fixed 16 4 c.toNat
  else [c]

/-- A text between quotes. -/
def quote (text : String) : List Char := '"' :: text.toList.flatMap escape ++ ['"']

/-- A whole number. -/
def integer (n : Int) : List Char :=
  (if n < 0 then ['-'] else []) ++ Digits.shortest n.natAbs

mutual

/-- The text of a value. -/
def chars : Json → List Char
  | .null => ['n', 'u', 'l', 'l']
  | .boolean true => ['t', 'r', 'u', 'e']
  | .boolean false => ['f', 'a', 'l', 's', 'e']
  | .number n => integer n
  | .text s => quote s
  | .array items => '[' :: itemChars items ++ [']']
  | .object members => '\x7b' :: memberChars members ++ ['\x7d']

/-- The items of an array with commas between them. -/
def itemChars : List Json → List Char
  | [] => []
  | [item] => chars item
  | item :: items => chars item ++ ',' :: itemChars items

/-- The members of an object with commas between them. -/
def memberChars : List (String × Json) → List Char
  | [] => []
  | [(key, value)] => quote key ++ ':' :: chars value
  | (key, value) :: members => quote key ++ ':' :: chars value ++ ',' :: memberChars members

end

/-- The text of a value. -/
def render (value : Json) : String := String.ofList value.chars

/-- A value that may be absent, absent as null. -/
def orNull : Option Json → Json
  | some value => value
  | none => .null

end Json

end CropLedger
