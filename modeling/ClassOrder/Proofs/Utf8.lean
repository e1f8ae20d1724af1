import ClassOrder.Proofs.CodeUnits

/-!
# Bytes of a code point

Within the ranges of well-formed sequences, one to four bytes are those that the number made up of
their bits is encoded with (`encode_one`, `encode_two`, `encode_three`, `encode_four`). So a decoded
code point is encoded as it was found (`encode_of_decodeNext`).
-/

namespace ClassOrder

namespace Utf8

/-! ## Bits of a sequence -/

/-- The byte can follow a lead byte. -/
def Trails (b : UInt8) : Prop := 0x80 ≤ b.toNat ∧ b.toNat ≤ 0xBF

theorem toUInt8_eq {n : Nat} {b : UInt8} (h : n = b.toNat) : n.toUInt8 = b := by
  subst h
  exact UInt8.ofNat_toNat

theorem continuation_eq {n : Nat} {b : UInt8} (h : 0x80 + n % 64 = b.toNat) :
    continuation n = b := toUInt8_eq h

theorem trails_continuation (n : Nat) : Trails (continuation n) := by
  unfold Trails
  rw [ModifiedUtf8.toNat_continuation]
  omega

section Bits

variable {n : Nat} {a b c d : UInt8}

theorem encode_one (high : a.toNat < 0x80) (bits : n = a.toNat) : encode n = [a] := by
  have size : n < 0x80 := by omega
  rw [encode, if_pos size, toUInt8_eq bits]

theorem encode_two (low : 0xC2 ≤ a.toNat) (high : a.toNat < 0xE0) (second : Trails b)
    (bits : n = 2 ^ 6 * (a.toNat - 0xC0) + (b.toNat - 0x80)) : encode n = [a, b] := by
  obtain ⟨low₁, high₁⟩ := second
  have size : ¬n < 0x80 ∧ n < 0x800 := by omega
  have first : (0xC0 + n / 64).toUInt8 = a := toUInt8_eq (by omega)
  have last : continuation n = b := continuation_eq (by omega)
  rw [encode, if_neg size.1, if_pos size.2, first, last]

/-- The bytes may be those of a surrogate. -/
theorem encode_three (low : 0xE0 ≤ a.toNat) (high : a.toNat < 0xF0) (second : Trails b)
    (third : Trails c) (short : a.toNat = 0xE0 → 0xA0 ≤ b.toNat)
    (bits : n = 2 ^ 12 * (a.toNat - 0xE0) + 2 ^ 6 * (b.toNat - 0x80) + (c.toNat - 0x80)) :
    encode n = [a, b, c] := by
  obtain ⟨low₁, high₁⟩ := second
  obtain ⟨low₂, high₂⟩ := third
  have size : ¬n < 0x80 ∧ ¬n < 0x800 ∧ n < 0x10000 := by omega
  have first : (0xE0 + n / 4096).toUInt8 = a := toUInt8_eq (by omega)
  have middle : continuation (n / 64) = b := continuation_eq (by omega)
  have last : continuation n = c := continuation_eq (by omega)
  rw [encode, if_neg size.1, if_neg size.2.1, if_pos size.2.2, first, middle, last]

theorem encode_four (low : 0xF0 ≤ a.toNat) (high : a.toNat < 0xF5) (second : Trails b)
    (third : Trails c) (fourth : Trails d) (short : a.toNat = 0xF0 → 0x90 ≤ b.toNat)
    (bits : n = 2 ^ 18 * (a.toNat - 0xF0) + 2 ^ 12 * (b.toNat - 0x80) +
      2 ^ 6 * (c.toNat - 0x80) + (d.toNat - 0x80)) :
    encode n = [a, b, c, d] := by
  obtain ⟨low₁, high₁⟩ := second
  obtain ⟨low₂, high₂⟩ := third
  obtain ⟨low₃, high₃⟩ := fourth
  have size : ¬n < 0x80 ∧ ¬n < 0x800 ∧ ¬n < 0x10000 := by omega
  have first : (0xF0 + n / 262144).toUInt8 = a := toUInt8_eq (by omega)
  have upper : continuation (n / 4096) = b := continuation_eq (by omega)
  have lower : continuation (n / 64) = c := continuation_eq (by omega)
  have last : continuation n = d := continuation_eq (by omega)
  rw [encode, if_neg size.1, if_neg size.2.1, if_neg size.2.2, first, upper, lower, last]

end Bits

/-! ## Decoded code points -/

/-- What a lead byte announces, by the number of bytes that follow it. The range of the second byte
keeps out overlong forms and surrogates. -/
inductive Announces (b : Nat) : List (Nat × Nat) → Nat → Prop
  | none (high : b < 0x80) : Announces b [] b
  | one (low : 0xC2 ≤ b) (high : b < 0xE0) : Announces b [(0x80, 0xBF)] (b - 0xC0)
  | two {first last : Nat} (low : 0xE0 ≤ b) (high : b < 0xF0) (inside : 0x80 ≤ first ∧ last ≤ 0xBF)
      (short : b = 0xE0 → 0xA0 ≤ first) (scalar : b = 0xED → last ≤ 0x9F) :
      Announces b [(first, last), (0x80, 0xBF)] (b - 0xE0)
  | three {first last : Nat} (low : 0xF0 ≤ b) (high : b < 0xF5)
      (inside : 0x80 ≤ first ∧ last ≤ 0xBF) (short : b = 0xF0 → 0x90 ≤ first) :
      Announces b [(first, last), (0x80, 0xBF), (0x80, 0xBF)] (b - 0xF0)

theorem announces_of_ofByte? {b : Nat} {lead : Lead} (h : Lead.ofByte? b = some lead) :
    Announces b lead.ranges lead.bits := by
  unfold Lead.ofByte? at h
  split_ifs at h with c1 c2 c3 c4 c5 c6 c7 c8 c9 <;> obtain rfl := Option.some.inj h
  · exact .none c1
  · exact .one (by omega) c3
  · subst c4
    exact .two (by omega) (by omega) (by omega) (by omega) (by omega)
  · subst c5
    exact .two (by omega) (by omega) (by omega) (by omega) (by omega)
  · exact .two (by omega) c6 (by omega) (by omega) (by omega)
  · subst c7
    exact .three (by omega) (by omega) (by omega) (by omega)
  · exact .three (by omega) (by omega) (by omega) (by omega)
  · subst c9
    exact .three (by omega) (by omega) (by omega) (by omega)

theorem exists_of_follow_cons {bits good low high : Nat} {ranges : List (Nat × Nat)}
    {rest : List UInt8} {c : Nat} (h : follow bits good ((low, high) :: ranges) rest = .ok c) :
    ∃ b more, rest = b :: more ∧ low ≤ b.toNat ∧ b.toNat ≤ high ∧
      follow (64 * bits + (b.toNat - 0x80)) (good + 1) ranges more = .ok c := by
  cases rest with
  | nil => cases h
  | cons b more =>
    rw [follow] at h
    split_ifs at h with inside
    exact ⟨b, more, rfl, inside.1, inside.2, h⟩

theorem eq_of_follow_nil {bits good : Nat} {rest : List UInt8} {c : Nat}
    (h : follow bits good [] rest = .ok c) : c = bits := by
  rw [ModifiedUtf8.follow_nil] at h
  exact (Except.ok.inj h).symm

theorem isSurrogate_eq_false {c : Nat} (h : c < 0xD800 ∨ 0xDFFF < c) :
    CodePoint.isSurrogate c = false := by
  rw [CodePoint.isSurrogate, Bool.and_eq_false_iff, decide_eq_false_iff_not,
    decide_eq_false_iff_not]
  exact h.imp Nat.not_le.2 Nat.not_le.2

/-- A decoded code point is no surrogate, and its bytes are those it was decoded from. -/
theorem encode_of_decodeNext {b : UInt8} {rest : List UInt8} {c : Nat} {more : Nat}
    (h : decodeNext b rest = .ok (c, more)) :
    encode c = b :: rest.take more ∧ CodePoint.isSurrogate c = false := by
  unfold decodeNext at h
  split at h
  · cases h
  · next bits ranges known =>
    obtain ⟨c', followed, same⟩ := map_eq_ok.1 h
    cases same
    have announced := announces_of_ofByte? known
    dsimp only at announced
    clear known h
    cases announced with
    | none high =>
      have value : c = b.toNat := eq_of_follow_nil followed
      exact ⟨encode_one high value, isSurrogate_eq_false (by omega)⟩
    | one low high =>
      obtain ⟨b₁, rest₁, rfl, low₁, high₁, followed₁⟩ := exists_of_follow_cons followed
      have value := eq_of_follow_nil followed₁
      exact ⟨encode_two low high ⟨low₁, high₁⟩ value, isSurrogate_eq_false (by omega)⟩
    | two low high inside short scalar =>
      obtain ⟨b₁, rest₁, rfl, low₁, high₁, followed₁⟩ := exists_of_follow_cons followed
      obtain ⟨b₂, rest₂, rfl, low₂, high₂, followed₂⟩ := exists_of_follow_cons followed₁
      have value := eq_of_follow_nil followed₂
      refine ⟨?_, isSurrogate_eq_false (by omega)⟩
      exact encode_three low high ⟨by omega, by omega⟩ ⟨low₂, high₂⟩ (by omega) (by omega)
    | three low high inside short =>
      obtain ⟨b₁, rest₁, rfl, low₁, high₁, followed₁⟩ := exists_of_follow_cons followed
      obtain ⟨b₂, rest₂, rfl, low₂, high₂, followed₂⟩ := exists_of_follow_cons followed₁
      obtain ⟨b₃, rest₃, rfl, low₃, high₃, followed₃⟩ := exists_of_follow_cons followed₂
      have value := eq_of_follow_nil followed₃
      refine ⟨?_, isSurrogate_eq_false (by omega)⟩
      exact encode_four low high ⟨by omega, by omega⟩ ⟨low₂, high₂⟩ ⟨low₃, high₃⟩ (by omega)
        (by omega)

end Utf8

end ClassOrder
