import ClassOrder.Text.Printable

/-!
# Quoted literals

A text between quotes on one line of printable characters. The quote is an apostrophe, or a double
quote when the text holds an apostrophe and no double quote. What cannot stand for itself is
escaped with a backslash.
-/

namespace ClassOrder

namespace Text

/-- The quote that a literal is written with. -/
def quoteFor (t : Text) : CodePoint :=
  if t.contains 0x27 && !t.contains 0x22 then 0x22 else 0x27

/-- The escapes that do not depend on the kind of literal: the backslash, the quote in use and the
three common controls. -/
def shortEscape? (quote c : CodePoint) : Option Text :=
  if c = quote ∨ c = 0x5C then some [0x5C, c]
  else match c with
    | 0x09 => some "\\t"
    | 0x0A => some "\\n"
    | 0x0D => some "\\r"
    | _ => none

/-- A code point by its number, in the shortest of three widths. -/
def numericEscape (c : CodePoint) : Text :=
  if c < 0x100 then "\\x" ++ hex 2 c
  else if c < 0x10000 then "\\u" ++ hex 4 c
  else "\\U" ++ hex 8 c

/-- One code point inside a literal with the given quote. -/
def escape (quote c : CodePoint) : Text :=
  (shortEscape? quote c).getD (if c.isPrintable then [c] else numericEscape c)

/-- The literal of a text. -/
def quoted (t : Text) : Text :=
  let quote := quoteFor t
  quote :: t.flatMap (escape quote) ++ [quote]

/-- One byte inside a literal with the given quote. -/
def escapeByte (quote : CodePoint) (b : UInt8) : Text :=
  let c := b.toNat
  (shortEscape? quote c).getD (if 0x20 ≤ c ∧ c ≤ 0x7E then [c] else numericEscape c)

/-- The literal of a byte string, marked by a letter in front. -/
def quotedBytes (bytes : List UInt8) : Text :=
  let quote := quoteFor (bytes.map UInt8.toNat)
  0x62 :: quote :: bytes.flatMap (escapeByte quote) ++ [quote]

/-- The text with every surrogate escaped by its number, so that any terminal can show it. -/
def escapeSurrogates (t : Text) : Text :=
  t.flatMap fun c => if c.isSurrogate then numericEscape c else [c]

/-- The string of a text, with every surrogate escaped. -/
def toString (t : Text) : String := String.ofList ((escapeSurrogates t).map Char.ofNat)

end Text

end ClassOrder
