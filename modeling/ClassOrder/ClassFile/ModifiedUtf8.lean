import ClassOrder.Text.Utf8

/-!
# Modified UTF-8

The encoding of the texts in a class file. It differs from UTF-8 in two ways: the zero code point
takes the two bytes `C0 80`, and a supplementary code point is written as a surrogate pair, each
half in three bytes. Decoding runs in three layers: every `C0 80` becomes a zero byte, the bytes
are read as UTF-8 in which surrogates are allowed, and surrogate pairs are joined.
-/

namespace ClassOrder

namespace ModifiedUtf8

/-- The first offending bytes: where they start, what they are and what is wrong with them. -/
structure Fault where
  position : Nat
  bytes : List UInt8
  reason : Utf8.Reason
  deriving DecidableEq, Repr

namespace Fault

/-- One offending byte is shown, several are given by their positions. -/
def place (fault : Fault) : Text :=
  match fault.bytes with
  | [b] => "byte 0x" ++ Text.hex 2 b.toNat ++ " in position " ++ Text.ofNat fault.position
  | bytes =>
    "bytes in position " ++ Text.ofNat fault.position ++ "-" ++
      Text.ofNat (fault.position + bytes.length - 1)

def message (fault : Fault) : Text :=
  "'utf-8' codec can't decode " ++ fault.place ++ ": " ++ fault.reason.message

end Fault

/-! ## Zero bytes -/

/-- Puts a byte in front, where `C0` and a following `80` become one zero byte. -/
def consPlain (b : UInt8) (rest : List UInt8) : List UInt8 :=
  match b, rest with
  | 0xC0, 0x80 :: tail => 0 :: tail
  | b, rest => b :: rest

/-- Writes every `C0 80` as a zero byte. -/
def plainZeros (bytes : List UInt8) : List UInt8 := bytes.foldr consPlain []

/-! ## UTF-8 with surrogates -/

/-- The surrogate whose three-byte form starts with `ED` and these bytes. -/
def surrogate? : List UInt8 → Option CodePoint
  | b :: c :: _ =>
    if 0xA0 ≤ b.toNat ∧ b.toNat ≤ 0xBF ∧ 0x80 ≤ c.toNat ∧ c.toNat ≤ 0xBF then
      some (0xD000 + 64 * (b.toNat - 0x80) + (c.toNat - 0x80))
    else none
  | _ => none

/-- The code point that a lead byte starts and the number of bytes it takes after the lead, where a
surrogate is as good as any other code point. On failure: how many bytes are to blame, and what is
wrong with them. -/
def codePoint (lead : UInt8) (rest : List UInt8) :
    Except (Nat × Utf8.Reason) (CodePoint × Nat) :=
  match Utf8.decodeNext lead rest with
  | .ok found => .ok found
  | .error blame =>
    match lead, surrogate? rest with
    | 0xED, some c => .ok (c, 2)
    | _, _ => .error blame

/-- Reads code points one after another; `found` holds those before the position, last first. -/
def readUtf8 (position : Nat) (found : List CodePoint) : List UInt8 → Except Fault Text
  | [] => .ok found.reverse
  | lead :: rest =>
    match codePoint lead rest with
    | .error (count, reason) => .error ⟨position, (lead :: rest).take count, reason⟩
    | .ok (c, more) => readUtf8 (position + 1 + more) (c :: found) (rest.drop more)
termination_by bytes => bytes.length
decreasing_by simp only [List.length_drop, List.length_cons]; omega

/-! ## Surrogate pairs -/

/-- The supplementary code point of a surrogate pair. -/
def pair (high low : CodePoint) : CodePoint :=
  0x10000 + 0x400 * (high - 0xD800) + (low - 0xDC00)

/-- Puts a code point in front, where a high surrogate and a following low one become one. -/
def consJoined (c : CodePoint) (rest : Text) : Text :=
  match rest with
  | d :: tail => if c.isHighSurrogate && d.isLowSurrogate then pair c d :: tail else c :: d :: tail
  | [] => [c]

/-- Joins every surrogate pair. No two pairs overlap, since no code point is both a high and a low
surrogate. -/
def joinPairs (t : Text) : Text := t.foldr consJoined []

/-- The text of an encoded byte sequence. Positions in a fault count after zeros were made plain. -/
def decode (bytes : List UInt8) : Except Fault Text :=
  (readUtf8 0 [] (plainZeros bytes)).map joinPairs

end ModifiedUtf8

end ClassOrder
