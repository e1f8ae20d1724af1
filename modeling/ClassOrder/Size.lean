/-!
# Sizes

A size counts what is in memory, and a position is a size too. Numbers themselves have no bound, so
a number can be too great to be a size.
-/

namespace ClassOrder

namespace Size

/-- The greatest size. -/
def greatest : Nat := 0x7FFFFFFFFFFFFFFF

/-- Whether a number is a size. -/
def isSize (n : Nat) : Bool := n ≤ greatest

/-- What is said of a number that is no size. -/
def excessMessage : String := "cannot fit 'int' into an index-sized integer"

end Size

end ClassOrder
