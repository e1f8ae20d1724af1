import ClassOrder.Text.Basic

/-!
# White space

The code points that count as white space around a setting, and the text between them.
-/

namespace ClassOrder

namespace CodePoint

/-- White space: the ASCII controls that move the cursor or separate records, and the spaces and
line breaks of the code space. The zero-width space and the byte-order mark are none. -/
def isBlank (c : CodePoint) : Bool :=
  (0x09 ≤ c && c ≤ 0x0D) || (0x1C ≤ c && c ≤ 0x20) || c == 0x85 || c == 0xA0 || c == 0x1680 ||
    (0x2000 ≤ c && c ≤ 0x200A) || c == 0x2028 || c == 0x2029 || c == 0x202F || c == 0x205F ||
    c == 0x3000

end CodePoint

namespace Text

/-- The text without the white space at its start. -/
def stripLeft (t : Text) : Text := t.dropWhile CodePoint.isBlank

/-- The text without the white space at its two ends. -/
def strip (t : Text) : Text := (stripLeft (stripLeft t).reverse).reverse

end Text

end ClassOrder
