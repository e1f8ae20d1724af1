/-!
# Text

A text is a list of code points. Unlike a string it may hold unpaired surrogates, which names read
from a class file and names given by the file system can both contain.
-/

namespace ClassOrder

/-- A Unicode code point, surrogates included. -/
abbrev CodePoint := Nat

/-- A text, as the list of its code points. -/
abbrev Text := List CodePoint

namespace Text

/-- The text of a string. -/
def ofString (s : String) : Text := s.toList.map Char.toNat

instance : Coe String Text := ⟨ofString⟩

/-- The decimal digits of a number. -/
def ofNat (n : Nat) : Text := (Nat.toDigits 10 n).map Char.toNat

/-- The decimal digits of an integer, after a minus sign if it is negative. -/
def ofInt : Int → Text
  | .ofNat n => ofNat n
  | .negSucc n => "-" ++ ofNat (n + 1)

/-- The hexadecimal digits of a number in lower case, with zeros in front up to a width. -/
def hex (width n : Nat) : Text :=
  let digits := (Nat.toDigits 16 n).map Char.toNat
  List.replicate (width - digits.length) 0x30 ++ digits

/-- The texts one after another, with a separator between neighbours. -/
def joinWith (separator : Text) (texts : List Text) : Text := List.intercalate separator texts

/-- The order of texts: that of the first code points in which they differ, where the end of a text
comes before every code point. -/
def le : Text → Text → Bool
  | [], _ => true
  | _ :: _, [] => false
  | c :: s, d :: t => c < d || (c == d && le s t)

/-- Names in square brackets, separated by a comma and a space. -/
def bracketed (names : List Text) : Text := "[" ++ joinWith ", " names ++ "]"

end Text

namespace CodePoint

/-- The first half of a surrogate pair. -/
def isHighSurrogate (c : CodePoint) : Bool := 0xD800 ≤ c && c ≤ 0xDBFF

/-- The second half of a surrogate pair. -/
def isLowSurrogate (c : CodePoint) : Bool := 0xDC00 ≤ c && c ≤ 0xDFFF

/-- Either half of a surrogate pair. -/
def isSurrogate (c : CodePoint) : Bool := 0xD800 ≤ c && c ≤ 0xDFFF

end CodePoint

end ClassOrder
