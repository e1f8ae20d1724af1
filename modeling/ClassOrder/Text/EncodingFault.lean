import ClassOrder.Text.Quoted

/-!
# Texts without an encoding

Surrogates have no place in UTF-8. Who encodes a text either refuses all of them or has a use for
some, and refuses the rest; the refusal names the first run of them.
-/

namespace ClassOrder

/-- A run of surrogates that has no encoding. -/
structure EncodingFault where
  /-- The surrogate that the run starts with. -/
  surrogate : CodePoint
  /-- The position of the first surrogate of the run. -/
  first : Nat
  /-- The position of the last surrogate of the run. -/
  last : Nat
  deriving DecidableEq, Repr

namespace EncodingFault

def message (fault : EncodingFault) : Text :=
  let place : Text :=
    if fault.first = fault.last then
      "character '" ++ Text.numericEscape fault.surrogate ++ "' in position " ++
        Text.ofNat fault.first
    else
      "characters in position " ++ Text.ofNat fault.first ++ "-" ++ Text.ofNat fault.last
  "'utf-8' codec can't encode " ++ place ++ ": surrogates not allowed"

/-- The fault of a text in which some surrogates are refused: a run that starts with the first of
these and goes on with whatever surrogates come right behind it. -/
def find? (refused : CodePoint → Bool) (t : Text) : Option EncodingFault :=
  match t.dropWhile (!refused ·) with
  | [] => none
  | c :: rest =>
    let first := (t.takeWhile (!refused ·)).length
    some ⟨c, first, first + (rest.takeWhile CodePoint.isSurrogate).length⟩

/-- The fault of a text in which all surrogates are refused. -/
def strict? (t : Text) : Option EncodingFault := find? CodePoint.isSurrogate t

end EncodingFault

end ClassOrder
