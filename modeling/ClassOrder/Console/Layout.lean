import ClassOrder.Console.Directive
import ClassOrder.Settings.Value
import ClassOrder.Text.Number

/-!
# Layout of values

How a directive shows a value. Its letter chooses the form: the text of a value, its literal, one
character, an integer in some base or a decimal. The flags, the width and the precision say how the
form is cut and filled up.
-/

namespace ClassOrder

/-- The forms in which a number can be shown with a point. -/
inductive DecimalForm where
  | fixed
  | scientific
  | general
  deriving DecidableEq, Repr

/-- What a letter makes of a value. -/
inductive Conversion where
  | plain
  | literal
  | asciiLiteral
  | character
  /-- An integer in a base, whose mark an open form shows. -/
  | integer (base : Nat) (mark : String)
  | decimal (form : DecimalForm)
  deriving DecidableEq, Repr

namespace Conversion

/-- The conversions by their letters. -/
def table : List (Char × Conversion) :=
  [('s', .plain), ('r', .literal), ('a', .asciiLiteral), ('c', .character),
    ('d', .integer 10 ""), ('i', .integer 10 ""), ('u', .integer 10 ""), ('o', .integer 8 "0o"),
    ('x', .integer 16 "0x"), ('X', .integer 16 "0x"), ('e', .decimal .scientific),
    ('E', .decimal .scientific), ('f', .decimal .fixed), ('F', .decimal .fixed),
    ('g', .decimal .general), ('G', .decimal .general)]

def ofLetter? (letter : CodePoint) : Option Conversion := table.lookup (Char.ofNat letter)

end Conversion

namespace Value

/-- The text of a value: a text stands for itself. -/
def shown : Value → Text
  | text t => t
  | value => value.literal

/-- The single code point that a value stands for. -/
def character? : Value → Option CodePoint
  | text [c] => some c
  | int (.ofNat n) => if n < 0x110000 then some n else none
  | _ => none

end Value

namespace Directive

/-! ## Flags -/

def isLeft (directive : Directive) : Bool := directive.flags.contains 0x2D

def isZeroFilled (directive : Directive) : Bool := directive.flags.contains 0x30

/-- Whether a number is shown in its open form. -/
def isOpen (directive : Directive) : Bool := directive.flags.contains 0x23

/-- The sign of a number. -/
def sign (directive : Directive) (n : Int) : Text :=
  if n < 0 then "-"
  else if directive.flags.contains 0x2B then "+"
  else if directive.flags.contains 0x20 then " "
  else []

/-! ## Room -/

/-- The most code points for which there is room in a line. -/
def room : Nat := 0x3FFFFFFF

/-- Whether zeros are put behind or in front of digits up to the precision. -/
def isPadded (directive : Directive) : Conversion → Bool
  | .integer .. | .decimal .fixed | .decimal .scientific => true
  | .decimal .general => directive.isOpen
  | _ => false

/-- Whether there is room for what the directive asks for. -/
def fits (directive : Directive) (conversion : Conversion) : Bool :=
  directive.width ≤ room &&
    (!directive.isPadded conversion || directive.precision.getD 0 ≤ room)

/-! ## Filling -/

/-- What is missing to the width. -/
def missing (directive : Directive) (size : Nat) : Nat := directive.width - size

/-- Fills a text up with blanks. -/
def fill (directive : Directive) (t : Text) : Text :=
  let blanks := List.replicate (directive.missing t.length) 0x20
  if directive.isLeft then t ++ blanks else blanks ++ t

/-- Fills a number up, with blanks around it or with zeros behind its mark. -/
def fillNumber (directive : Directive) (mark digits : Text) : Text :=
  if directive.isZeroFilled && !directive.isLeft then
    mark ++ Text.zeros (directive.missing (mark.length + digits.length)) ++ digits
  else directive.fill (mark ++ digits)

/-- Cuts a text to the precision and fills it up. -/
def cut (directive : Directive) (t : Text) : Text :=
  directive.fill (directive.precision.elim t t.take)

/-! ## Forms -/

/-- The literal of a value, with escapes in place of what is not ASCII. -/
def asciiLiteral (value : Value) : Text :=
  value.literal.flatMap fun c => if c < 0x80 then [c] else Text.numericEscape c

/-- The number in upper case, if the letter is. -/
def inCase (directive : Directive) (t : Text) : Text :=
  if directive.letter.lower = directive.letter then t else t.upper

/-- An integer in a base. -/
def integer (directive : Directive) (base : Nat) (mark : Text) (n : Int) : Text :=
  directive.fillNumber
    (directive.sign n ++ directive.inCase (if directive.isOpen then mark else []))
    (directive.inCase (Text.digits base (directive.precision.getD 0) n.natAbs))

/-- The decimal form of a number, with six places or digits if there is no precision. -/
def decimalDigits (directive : Directive) (n : Nat) : DecimalForm → Text
  | .fixed => Text.fixed directive.isOpen (directive.precision.getD 6) n
  | .scientific => Text.scientific directive.isOpen (directive.precision.getD 6) n
  | .general => Text.general directive.isOpen (directive.precision.getD 6) n

/-- A decimal. -/
def decimal (directive : Directive) (form : DecimalForm) (n : Int) : Text :=
  directive.fillNumber (directive.sign n)
    (directive.inCase (directive.decimalDigits n.natAbs form))

/-- What the directive makes of a value, if the conversion applies to it. -/
def convert? (directive : Directive) : Conversion → Value → Option Text
  | .plain, value => some (directive.cut value.shown)
  | .literal, value => some (directive.cut value.literal)
  | .asciiLiteral, value => some (directive.cut (asciiLiteral value))
  | .character, value => value.character?.map fun c => directive.fill [c]
  | .integer base mark, .int n => some (directive.integer base mark n)
  | .decimal form, .int n => some (directive.decimal form n)
  | _, _ => none

/-- What the directive shows of a value, if its letter applies to it and there is room. -/
def show? (directive : Directive) (value : Value) : Option Text := do
  let conversion ← Conversion.ofLetter? directive.letter
  if directive.fits conversion then directive.convert? conversion value else none

end Directive

end ClassOrder
