/-!
# Trimmed ends

A text without the characters of a kind that stand at its end.
-/

namespace CropLedger.Text

/-- A text without the characters of a kind that it ends with. -/
def dropEndWhile (kind : Char → Bool) (text : List Char) : List Char :=
  (text.reverse.dropWhile kind).reverse

end CropLedger.Text
