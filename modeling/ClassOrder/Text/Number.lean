import ClassOrder.Text.Basic

/-!
# Forms of numbers

Natural numbers in digits of a base, and in the three decimal forms: with a fixed number of places,
in scientific notation, and in whichever of the two is the shorter. An open form keeps the point and
the zeros behind it that could be left out.
-/

namespace ClassOrder

namespace Text

/-- A number of zeros. -/
def zeros (count : Nat) : Text := List.replicate count 0x30

/-- The digits of a number in a base, with zeros in front up to a width. -/
def digits (base width n : Nat) : Text :=
  let digits := (Nat.toDigits base n).map Char.toNat
  zeros (width - digits.length) ++ digits

/-- The quotient of two numbers, rounded to the nearest; a half goes to the even neighbour. -/
def roundedQuotient (n divisor : Nat) : Nat :=
  let quotient := n / divisor
  let rest := 2 * (n % divisor)
  if divisor < rest ∨ (rest = divisor ∧ quotient % 2 = 1) then quotient + 1 else quotient

/-- The first digits of a number, rounded to a count of at least one, and the power of ten of the
first of them. -/
def significant (count n : Nat) : Text × Nat :=
  let size := (ofNat n).length
  if size ≤ count then (ofNat n ++ zeros (count - size), size - 1)
  else
    let rounded := ofNat (roundedQuotient n (Nat.pow 10 (size - count)))
    (rounded.take count, size - 1 + (rounded.length - count))

/-- A point and the digits behind it. Without digits there is a point only in an open form. -/
def fraction (isOpen : Bool) (behind : Text) : Text :=
  if behind.isEmpty && !isOpen then [] else 0x2E :: behind

/-- The digits without the zeros at their end, which an open form keeps. -/
def trimZeros (isOpen : Bool) (digits : Text) : Text :=
  if isOpen then digits else (digits.reverse.dropWhile (· == 0x30)).reverse

/-- A number with a fixed number of places. -/
def fixed (isOpen : Bool) (places n : Nat) : Text := ofNat n ++ fraction isOpen (zeros places)

/-- A power of ten, with two digits at least. -/
def exponent (power : Nat) : Text := "e+" ++ digits 10 2 power

/-- A number in scientific notation. -/
def scientific (isOpen : Bool) (places n : Nat) : Text :=
  let (digits, power) := significant (places + 1) n
  digits.take 1 ++ fraction isOpen (digits.drop 1) ++ exponent power

/-- A number with some count of digits, in scientific notation if it has more of them. Unless the
form is open, no zeros are put behind the digits of the number, since they would be left out. -/
def general (isOpen : Bool) (count n : Nat) : Text :=
  let count := max 1 count
  let (digits, power) := significant (if isOpen then count else min count (ofNat n).length) n
  if power < count then
    digits.take (power + 1) ++ fraction isOpen (trimZeros isOpen (digits.drop (power + 1)))
  else digits.take 1 ++ fraction isOpen (trimZeros isOpen (digits.drop 1)) ++ exponent power

end Text

end ClassOrder
