import ClassOrder.Text.Basic

/-!
# Integers in text

Decimal digits of every script, and the integer that a text spells with them: an optional sign,
then digits, where a single underscore may stand between two digits.
-/

namespace ClassOrder

namespace CodePoint

/-- The digit zero of every script; its nine successors are the digits one to nine. -/
def zeroDigits : List CodePoint := [
  0x30, 0x660, 0x6F0, 0x7C0, 0x966, 0x9E6, 0xA66, 0xAE6, 0xB66, 0xBE6, 0xC66, 0xCE6, 0xD66, 0xDE6,
  0xE50, 0xED0, 0xF20, 0x1040, 0x1090, 0x17E0, 0x1810, 0x1946, 0x19D0, 0x1A80, 0x1A90, 0x1B50,
  0x1BB0, 0x1C40, 0x1C50, 0xA620, 0xA8D0, 0xA900, 0xA9D0, 0xA9F0, 0xAA50, 0xABF0, 0xFF10, 0x104A0,
  0x10D30, 0x11066, 0x110F0, 0x11136, 0x111D0, 0x112F0, 0x11450, 0x114D0, 0x11650, 0x116C0,
  0x11730, 0x118E0, 0x11950, 0x11C50, 0x11D50, 0x11DA0, 0x16A60, 0x16AC0, 0x16B50, 0x1D7CE,
  0x1D7D8, 0x1D7E2, 0x1D7EC, 0x1D7F6, 0x1E140, 0x1E2F0, 0x1E950, 0x1FBF0]

/-- The value of a decimal digit. -/
def digit? (c : CodePoint) : Option Nat :=
  zeroDigits.findSome? fun z => if z ≤ c ∧ c < z + 10 then some (c - z) else none

end CodePoint

namespace Text

/-- The most digits a spelled integer may have, leading zeros counted. -/
def maxDigits : Nat := 4300

/-- The mark that may stand between two digits. -/
def digitSeparator : CodePoint := 0x5F

/-- The digits of a run of digits in which one separator may stand between two digits. -/
def digits? (t : Text) : Option (List Nat) :=
  let groups := t.splitOn digitSeparator
  if groups.any List.isEmpty then none else groups.flatten.mapM CodePoint.digit?

/-- The number that a list of decimal digits spells. -/
def ofDigits (digits : List Nat) : Nat := digits.foldl (fun n d => 10 * n + d) 0

/-- The number spelled without a sign. -/
def nat? (t : Text) : Option Nat := do
  let digits ← digits? t
  if digits.length ≤ maxDigits then some (ofDigits digits) else none

/-- The integer that a text spells. -/
def int? : Text → Option Int
  | 0x2B :: rest => (nat? rest).map Int.ofNat
  | 0x2D :: rest => (nat? rest).map fun n => - Int.ofNat n
  | t => (nat? t).map Int.ofNat

end Text

end ClassOrder
