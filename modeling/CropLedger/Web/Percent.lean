import CropLedger.Text.Digits
import CropLedger.Text.Utf8

/-!
# Percent escapes

In an address a byte may be written as a percent sign and two hexadecimal digits. A percent sign
that no two digits follow stands for itself.
-/

namespace CropLedger.Web

/-- The character of a byte of plain text. -/
def plainChar (b : UInt8) : Char := Char.ofNat b.toNat

/-- The bytes that escapes stand for. -/
def unescape : Bytes → Bytes
  | 0x25 :: a :: b :: rest =>
    match Digits.hex? (plainChar a), Digits.hex? (plainChar b) with
    | some x, some y => (x * 16 + y).toUInt8 :: unescape rest
    | _, _ => 0x25 :: unescape (a :: b :: rest)
  | b :: rest => b :: unescape rest
  | [] => []

/-- The text of a part of a path, if its bytes spell one. -/
def unescapeText? (part : String) : Option String := Utf8.decode? (unescape (Utf8.encode part))

end CropLedger.Web
