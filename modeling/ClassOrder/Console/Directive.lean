import ClassOrder.Size
import ClassOrder.Text.Case
import ClassOrder.Text.Digit
import ClassOrder.Text.Word

/-!
# Directives

A directive stands behind a percent sign in the format of a log line: the name of a field in round
brackets, flags, a least width, a precision behind a point, and a letter that says how the field is
shown, as in `%(message)-20.10s`.

There are two ways to look at one. Showing a line needs the meaning of every part
(`Directive.read?`). Whether a format is accepted needs only that a field can be made out
(`Directive.namesField`), which is at the same time stricter on the name and looser on digits and
on the case of the letter.
-/

namespace ClassOrder

/-- What stands behind a percent sign. -/
structure Directive where
  /-- The name in round brackets. -/
  field : Option Text
  flags : Text
  /-- The least number of code points. -/
  width : Nat
  precision : Option Nat
  /-- How the field is shown. -/
  letter : CodePoint
  deriving DecidableEq, Repr

namespace Directive

def openBracket : CodePoint := 0x28

def closeBracket : CodePoint := 0x29

def point : CodePoint := 0x2E

def star : CodePoint := 0x2A

def isFlag (c : CodePoint) : Bool := (Text.ofString "#0+ -").contains c

/-! ## Reading -/

def isDigit (c : CodePoint) : Bool := 0x30 ≤ c && c ≤ 0x39

/-- The greatest width. -/
def maxWidth : Nat := Size.greatest

/-- The greatest precision. -/
def maxPrecision : Nat := 0x7FFFFFFF

/-- The number that digits spell. -/
def number (digits : Text) : Nat := digits.foldl (fun n c => 10 * n + (c - 0x30)) 0

/-- The digits at the start of a text as a number, if it is not too great, and the rest. -/
def readNumber? (greatest : Nat) (t : Text) : Option (Nat × Text) :=
  let n := number (t.takeWhile isDigit)
  if n ≤ greatest then some (n, t.dropWhile isDigit) else none

/-- The name in round brackets at the start of a text, and the rest. -/
def readField? (t : Text) : Option (Option Text × Text) :=
  if t.head? = some openBracket then
    let name := t.tail.takeWhile (· != closeBracket)
    match t.tail.dropWhile (· != closeBracket) with
    | _ :: rest => some (some name, rest)
    | [] => none
  else some (none, t)

/-- The number behind a point at the start of a text, and the rest. Without digits it is zero. -/
def readPrecision? (t : Text) : Option (Option Nat × Text) :=
  if t.head? = some point then
    (readNumber? maxPrecision t.tail).map fun (n, rest) => (some n, rest)
  else some (none, t)

/-- Drops a letter for the size of a number, which says nothing here. -/
def dropSizeLetter (t : Text) : Text :=
  match t with
  | c :: rest => if (Text.ofString "hlL").contains c then rest else t
  | [] => []

/-- The directive at the start of a text, and the rest. -/
def read? (t : Text) : Option (Directive × Text) := do
  let (field, t) ← readField? t
  let flags := t.takeWhile isFlag
  let (width, t) ← readNumber? maxWidth (t.dropWhile isFlag)
  let (precision, t) ← readPrecision? t
  match dropSizeLetter t with
  | letter :: rest => return (⟨field, flags, width, precision, letter⟩, rest)
  | [] => none

/-! ## Accepting -/

/-- The letters of a field, in lower case, with two that become them in upper case. -/
def letters : Text := "diouxefgcrsa%ıſ"

/-- Whether the code point is the letter of a field, in either case. -/
def isLetter (c : CodePoint) : Bool := letters.contains c.lower || c == 0x130

/-- Drops a star or digits of any script at the start of a text. -/
def dropSize (t : Text) : Text :=
  if t.head? = some star then t.tail else t.dropWhile fun c => c.digit?.isSome

/-- Whether the rest of a field stands at the start of a text: flags, a size, a size behind a point,
and a letter. -/
def endsField (t : Text) : Bool :=
  let behindSize := dropSize (t.dropWhile isFlag)
  match behindSize with
  | [] => false
  | c :: rest =>
    if c = point then
      let behind := dropSize rest
      behind.length < rest.length && behind.head?.any isLetter
    else isLetter c

/-- Whether a field with a proper name stands at the start of a text. -/
def namesField (t : Text) : Bool :=
  match t with
  | [] => false
  | c :: rest =>
    let name := rest.takeWhile CodePoint.isWord
    let behind := rest.dropWhile CodePoint.isWord
    c == openBracket && !name.isEmpty && behind.head? == some closeBracket && endsField behind.tail

end Directive

end ClassOrder
