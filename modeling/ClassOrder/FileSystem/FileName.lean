import ClassOrder.Text.Utf8

/-!
# File names

The system keeps names as bytes. A text is encoded as UTF-8, and a byte that is no part of an
encoded code point is shown as one of 128 surrogates. So every name has a text that is encoded as
this name again, while a name can have further texts, in which more bytes than needed are shown
as surrogates.
-/

namespace ClassOrder

/-- A name in a directory, as the system keeps it. -/
abbrev FileName := List UInt8

namespace FileName

/-- The surrogate that stands for a byte. -/
def escapedByte (b : UInt8) : CodePoint := 0xDC00 + b.toNat

/-- Whether a surrogate stands for a byte that is no part of an encoded code point. -/
def isEscapedByte (c : CodePoint) : Bool := 0xDC80 ≤ c && c ≤ 0xDCFF

/-- The bytes of a code point. -/
def encode (c : CodePoint) : List UInt8 :=
  if isEscapedByte c then [(c - 0xDC00).toUInt8] else Utf8.encode c

/-- The name that a text stands for. -/
def ofText (t : Text) : FileName := t.flatMap encode

/-- The text of a name, with as few escaped bytes as can be. -/
def toText : FileName → Text
  | [] => []
  | b :: rest =>
    match Utf8.decodeNext b rest with
    | .ok (c, more) => c :: toText (rest.drop more)
    | .error _ => escapedByte b :: toText rest
termination_by bytes => bytes.length
decreasing_by all_goals simp only [List.length_drop, List.length_cons]; omega

/-- The text that the system gives for the name that a text stands for. -/
def canonical (t : Text) : Text := toText (ofText t)

end FileName

end ClassOrder
