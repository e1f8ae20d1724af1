import ClassOrder.Text.Basic

/-!
# Letter case

Case conversion as far as it can produce an ASCII text, which is all that comparing with an ASCII
word needs: every code point whose upper-case or lower-case form is ASCII is converted, and every
other code point stays, so that a text with such a code point equals no ASCII word.
-/

namespace ClassOrder

namespace CodePoint

/-- The upper-case form, where it is ASCII. -/
def upper (c : CodePoint) : Text :=
  if 0x61 ≤ c ∧ c ≤ 0x7A then [c - 0x20]
  else match c with
    | 0xDF => "SS"
    | 0x131 => "I"
    | 0x17F => "S"
    | 0xFB00 => "FF"
    | 0xFB01 => "FI"
    | 0xFB02 => "FL"
    | 0xFB03 => "FFI"
    | 0xFB04 => "FFL"
    | 0xFB05 => "ST"
    | 0xFB06 => "ST"
    | _ => [c]

/-- The lower-case form, where it is ASCII. -/
def lower (c : CodePoint) : CodePoint :=
  if 0x41 ≤ c ∧ c ≤ 0x5A then c + 0x20
  else if c = 0x212A then 0x6B
  else c

end CodePoint

namespace Text

/-- The text in upper case. -/
def upper (t : Text) : Text := t.flatMap CodePoint.upper

/-- The text in lower case. -/
def lower (t : Text) : Text := t.map CodePoint.lower

end Text

end ClassOrder
