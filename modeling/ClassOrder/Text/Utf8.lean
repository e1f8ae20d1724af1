import ClassOrder.Text.Basic

/-!
# UTF-8

A code point takes one to four bytes. The lead byte tells how many follow, and the range of the
second byte keeps out overlong forms, surrogates and what lies beyond the code space.
-/

namespace ClassOrder

namespace Utf8

/-- Why a byte sequence is no encoded code point. -/
inductive Reason where
  | startByte
  | continuationByte
  | endOfData
  deriving DecidableEq, Repr

namespace Reason

def message : Reason → String
  | startByte => "invalid start byte"
  | continuationByte => "invalid continuation byte"
  | endOfData => "unexpected end of data"

end Reason

/-! ## Encoding -/

/-- A continuation byte with the last six bits of a number. -/
def continuation (n : Nat) : UInt8 := (0x80 + n % 64).toUInt8

/-- The bytes of a code point. Surrogates are encoded like their neighbours. -/
def encode (c : CodePoint) : List UInt8 :=
  if c < 0x80 then [c.toUInt8]
  else if c < 0x800 then [(0xC0 + c / 64).toUInt8, continuation c]
  else if c < 0x10000 then
    [(0xE0 + c / 4096).toUInt8, continuation (c / 64), continuation c]
  else
    [(0xF0 + c / 262144).toUInt8, continuation (c / 4096), continuation (c / 64), continuation c]

/-! ## Decoding -/

/-- What a lead byte announces: its own bits, and the range of each byte that must follow. -/
structure Lead where
  bits : Nat
  ranges : List (Nat × Nat)

namespace Lead

/-- The range of a continuation byte without a restriction. -/
def anyContinuation : Nat × Nat := (0x80, 0xBF)

/-- Only the range of the second byte can be restricted. -/
def ofByte? (b : Nat) : Option Lead :=
  if b < 0x80 then some ⟨b, []⟩
  else if b < 0xC2 then none
  else if b < 0xE0 then some ⟨b - 0xC0, [anyContinuation]⟩
  else if b = 0xE0 then some ⟨0, [(0xA0, 0xBF), anyContinuation]⟩
  else if b = 0xED then some ⟨0xD, [(0x80, 0x9F), anyContinuation]⟩
  else if b < 0xF0 then some ⟨b - 0xE0, [anyContinuation, anyContinuation]⟩
  else if b = 0xF0 then some ⟨0, [(0x90, 0xBF), anyContinuation, anyContinuation]⟩
  else if b < 0xF4 then some ⟨b - 0xF0, [anyContinuation, anyContinuation, anyContinuation]⟩
  else if b = 0xF4 then some ⟨4, [(0x80, 0x8F), anyContinuation, anyContinuation]⟩
  else none

end Lead

/-- Adds six bits from each continuation byte to the bits so far. On failure: how many bytes of the
sequence were good, and what is wrong. -/
def follow (bits good : Nat) : List (Nat × Nat) → List UInt8 → Except (Nat × Reason) CodePoint
  | [], _ => .ok bits
  | _ :: _, [] => .error (good, .endOfData)
  | (low, high) :: ranges, b :: rest =>
    if low ≤ b.toNat ∧ b.toNat ≤ high then
      follow (64 * bits + (b.toNat - 0x80)) (good + 1) ranges rest
    else .error (good, .continuationByte)

/-- The code point that a lead byte starts and the number of bytes it takes after the lead. On
failure: how many bytes are to blame, and what is wrong with them. -/
def decodeNext (lead : UInt8) (rest : List UInt8) : Except (Nat × Reason) (CodePoint × Nat) :=
  match Lead.ofByte? lead.toNat with
  | none => .error (1, .startByte)
  | some ⟨bits, ranges⟩ => (follow bits 1 ranges rest).map fun c => (c, ranges.length)

end Utf8

end ClassOrder
