import ClassOrder.Proofs.Utf8

/-!
# Decoding in one pass

`decodeTokens` reads a byte string token by token, as it stands, and joins surrogate pairs on the
way. Decoding in layers gives the same (`decode_eq_decodeTokens`): a byte that can follow a lead
byte is neither `C0` nor zero, so writing zeros plain keeps the bytes of every other token together
and makes no new ones.
-/

namespace ClassOrder

namespace ModifiedUtf8

open CodePoint Utf8

/-! ## Tokens -/

/-- The forms of a code point in UTF-8, as the ranges of its bytes. -/
def forms : List (List (Nat × Nat)) :=
  [[(0x00, 0x7F)],
    [(0xC2, 0xDF), (0x80, 0xBF)],
    [(0xE0, 0xE0), (0xA0, 0xBF), (0x80, 0xBF)],
    [(0xE1, 0xEC), (0x80, 0xBF), (0x80, 0xBF)],
    [(0xED, 0xED), (0x80, 0x9F), (0x80, 0xBF)],
    -- The surrogates.
    [(0xED, 0xED), (0xA0, 0xBF), (0x80, 0xBF)],
    [(0xEE, 0xEF), (0x80, 0xBF), (0x80, 0xBF)],
    [(0xF0, 0xF0), (0x90, 0xBF), (0x80, 0xBF), (0x80, 0xBF)],
    [(0xF1, 0xF3), (0x80, 0xBF), (0x80, 0xBF), (0x80, 0xBF)],
    [(0xF4, 0xF4), (0x80, 0x8F), (0x80, 0xBF), (0x80, 0xBF)]]

/-- Whether a byte string starts with bytes in these ranges. -/
def fits : List (Nat × Nat) → List UInt8 → Bool
  | [], _ => true
  | _ :: _, [] => false
  | (low, high) :: form, b :: bytes => low ≤ b.toNat && b.toNat ≤ high && fits form bytes

/-- The number that the bits of a sequence make up. -/
def value : List UInt8 → CodePoint
  | [a] => a.toNat
  | [a, b] => 2 ^ 6 * (a.toNat - 0xC0) + (b.toNat - 0x80)
  | [a, b, c] => 2 ^ 12 * (a.toNat - 0xE0) + 2 ^ 6 * (b.toNat - 0x80) + (c.toNat - 0x80)
  | [a, b, c, d] =>
    2 ^ 18 * (a.toNat - 0xF0) + 2 ^ 12 * (b.toNat - 0x80) + 2 ^ 6 * (c.toNat - 0x80) +
      (d.toNat - 0x80)
  | _ => 0

/-- The code point of the token that a lead byte starts, and the number of bytes that the token
takes after the lead. -/
def token? (lead : UInt8) (rest : List UInt8) : Option (CodePoint × Nat) :=
  if lead = 0xC0 ∧ rest.head? = some 0x80 then some (0, 1)
  else
    (forms.find? (fits · (lead :: rest))).map fun form =>
      (value ((lead :: rest).take form.length), form.length - 1)

/-- Puts a code point behind those found so far, last first. With a high surrogate there, a low one
makes up a supplementary code point. -/
def joinOnto (found : Text) (c : CodePoint) : Text :=
  match found with
  | d :: before =>
    if isHighSurrogate d && isLowSurrogate c then
      (0x10000 + 0x400 * (d % 0x400) + c % 0x400) :: before
    else c :: d :: before
  | [] => [c]

/-- Decodes on; `found` holds the text so far, last code point first. -/
def decodeOnto (found : Text) : List UInt8 → Option Text
  | [] => some found.reverse
  | lead :: rest =>
    match token? lead rest with
    | none => none
    | some (c, more) => decodeOnto (joinOnto found c) (rest.drop more)
termination_by bytes => bytes.length
decreasing_by simp only [List.length_drop, List.length_cons]; omega

/-- The text of a byte string, read token by token. -/
def decodeTokens (bytes : List UInt8) : Option Text := decodeOnto [] bytes

/-! ## Code points and their bytes -/

theorem ofByte?_four {k : Nat} (high : k < 5) :
    Lead.ofByte? (0xF0 + k) =
      some ⟨k, [(if k = 0 then 0x90 else 0x80, if k = 4 then 0x8F else 0xBF), (0x80, 0xBF),
        (0x80, 0xBF)]⟩ := by
  interval_cases k <;> rfl

theorem codePoint_four {c : Nat} (low : 0x10000 ≤ c) (high : c < 0x110000) (rest : List UInt8) :
    codePoint (0xF0 + c / 262144).toUInt8
      (continuation (c / 4096) :: continuation (c / 64) :: continuation c :: rest) = .ok (c, 3) := by
  have lead : Lead.ofByte? (0xF0 + c / 262144).toUInt8.toNat = some ⟨c / 262144,
      [(if c / 262144 = 0 then 0x90 else 0x80, if c / 262144 = 4 then 0x8F else 0xBF),
        (0x80, 0xBF), (0x80, 0xBF)]⟩ := by
    rw [toNat_toUInt8 (by omega), ofByte?_four (by omega)]
  have second : (if c / 262144 = 0 then 0x90 else 0x80) ≤ 0x80 + c / 4096 % 64 ∧
      0x80 + c / 4096 % 64 ≤ if c / 262144 = 4 then 0x8F else 0xBF := by
    split_ifs <;> omega
  have bits : 64 * (64 * (64 * (c / 262144) + c / 4096 % 64) + c / 64 % 64) + c % 64 = c := by
    omega
  rw [codePoint, decodeNext_eq lead, follow_continuation second, follow_continuation (by omega),
    follow_continuation (by omega), follow_nil, bits]
  rfl

theorem codePoint_of_encode {c : Nat} (high : c < 0x110000) {lead : UInt8} {tail : List UInt8}
    (bytes : Utf8.encode c = lead :: tail) (rest : List UInt8) :
    codePoint lead (tail ++ rest) = .ok (c, tail.length) := by
  by_cases basic : c < 0x10000
  · obtain ⟨lead', tail', bytes', read⟩ := codePoint_encode basic rest
    obtain ⟨rfl, rfl⟩ := List.cons.inj (bytes.symm.trans bytes')
    exact read
  · have size : ¬c < 0x80 ∧ ¬c < 0x800 := by omega
    rw [Utf8.encode, if_neg size.1, if_neg size.2, if_neg basic] at bytes
    obtain ⟨rfl, rfl⟩ := List.cons.inj bytes
    exact codePoint_four (by omega) high rest

/-- All bytes but the first one can follow a lead byte. -/
theorem trails_of_encode {c : Nat} {lead : UInt8} {tail : List UInt8}
    (bytes : Utf8.encode c = lead :: tail) : ∀ b ∈ tail, Trails b := by
  unfold Utf8.encode at bytes
  split_ifs at bytes <;> obtain ⟨-, rfl⟩ := List.cons.inj bytes <;>
    simp [trails_continuation]

theorem length_le_of_follow {bits good : Nat} {ranges : List (Nat × Nat)} {rest : List UInt8}
    {c : Nat} (h : follow bits good ranges rest = .ok c) : ranges.length ≤ rest.length := by
  fun_induction follow bits good ranges rest with
  | case1 => exact Nat.zero_le _
  | case2 => cases h
  | case3 bits good low high ranges b rest inside ih => exact Nat.succ_le_succ (ih h)
  | case4 => cases h

theorem length_take_of_decodeNext {lead : UInt8} {rest : List UInt8} {c more : Nat}
    (h : decodeNext lead rest = .ok (c, more)) : (rest.take more).length = more := by
  unfold decodeNext at h
  split at h
  · cases h
  · obtain ⟨_, followed, same⟩ := map_eq_ok.1 h
    cases same
    exact List.length_take_of_le (length_le_of_follow followed)

theorem encode_of_surrogate? {rest : List UInt8} {c : Nat} (h : surrogate? rest = some c) :
    ∃ a b after, rest = a :: b :: after ∧ Utf8.encode c = [0xED, a, b] := by
  unfold surrogate? at h
  split at h
  · next a b after =>
    split_ifs at h with inside
    have bits : c = 0xD000 + 64 * (a.toNat - 0x80) + (b.toNat - 0x80) := (Option.some.inj h).symm
    have lead : (0xED : UInt8).toNat = 0xED := rfl
    refine ⟨a, b, after, rfl, ?_⟩
    exact encode_three (by omega) (by omega) ⟨by omega, by omega⟩ ⟨by omega, by omega⟩ (by omega)
      (by omega)
  · cases h

theorem codePoint_eq_ok_iff {lead : UInt8} {rest : List UInt8} {c more : Nat} :
    codePoint lead rest = .ok (c, more) ↔
      c < 0x110000 ∧ ∃ tail after, Utf8.encode c = lead :: tail ∧ rest = tail ++ after ∧
        tail.length = more := by
  constructor
  · intro read
    refine ⟨codePoint_lt read, ?_⟩
    unfold codePoint at read
    split at read
    · next found decoded =>
      cases read
      exact ⟨_, rest.drop more, (encode_of_decodeNext decoded).1,
        (List.take_append_drop more rest).symm, length_take_of_decodeNext decoded⟩
    · split at read
      · next surrogate _ =>
        cases read
        obtain ⟨a, b, after, rfl, bytes⟩ := encode_of_surrogate? surrogate
        exact ⟨[a, b], after, bytes, rfl, rfl⟩
      · cases read
  · rintro ⟨high, tail, after, bytes, rfl, rfl⟩
    exact codePoint_of_encode high bytes after

/-! ## Forms of tokens -/

theorem fits_cons {low high : Nat} {form : List (Nat × Nat)} {b : UInt8} {bytes : List UInt8} :
    fits ((low, high) :: form) (b :: bytes) = true ↔
      (low ≤ b.toNat ∧ b.toNat ≤ high) ∧ fits form bytes = true := by
  rw [fits, Bool.and_eq_true, Bool.and_eq_true, decide_eq_true_iff, decide_eq_true_iff]

theorem exists_of_fits {low high : Nat} {form : List (Nat × Nat)} {bytes : List UInt8}
    (h : fits ((low, high) :: form) bytes = true) :
    ∃ b rest, bytes = b :: rest ∧ low ≤ b.toNat ∧ b.toNat ≤ high ∧ fits form rest = true := by
  cases bytes with
  | nil => cases h
  | cons b rest =>
    obtain ⟨⟨low, high⟩, later⟩ := fits_cons.1 h
    exact ⟨b, rest, rfl, low, high, later⟩

/-- The byte string starts with the bytes of a code point, as many as the form has. -/
def Spells (form : List (Nat × Nat)) (bytes : List UInt8) : Prop :=
  ∃ lead tail rest, bytes = lead :: (tail ++ rest) ∧ form.length = tail.length + 1 ∧
    value (lead :: tail) < 0x110000 ∧ Utf8.encode (value (lead :: tail)) = lead :: tail

theorem spells_two {low high : Nat} {bytes : List UInt8}
    (fit : fits [(low, high), (0x80, 0xBF)] bytes = true) (inside : 0xC2 ≤ low ∧ high < 0xE0) :
    Spells [(low, high), (0x80, 0xBF)] bytes := by
  obtain ⟨a, _, rfl, low₀, high₀, fit⟩ := exists_of_fits fit
  obtain ⟨b, rest, rfl, low₁, high₁, -⟩ := exists_of_fits fit
  refine ⟨a, [b], rest, rfl, rfl, ?_, ?_⟩
  · change 2 ^ 6 * (a.toNat - 0xC0) + (b.toNat - 0x80) < 0x110000
    omega
  · exact encode_two (by omega) (by omega) ⟨low₁, high₁⟩ rfl

theorem spells_three {low high first last : Nat} {bytes : List UInt8}
    (fit : fits [(low, high), (first, last), (0x80, 0xBF)] bytes = true)
    (inside : 0xE0 ≤ low ∧ high < 0xF0 ∧ 0x80 ≤ first ∧ last ≤ 0xBF)
    (short : low = 0xE0 → 0xA0 ≤ first) :
    Spells [(low, high), (first, last), (0x80, 0xBF)] bytes := by
  obtain ⟨a, _, rfl, low₀, high₀, fit⟩ := exists_of_fits fit
  obtain ⟨b, _, rfl, low₁, high₁, fit⟩ := exists_of_fits fit
  obtain ⟨c, rest, rfl, low₂, high₂, -⟩ := exists_of_fits fit
  refine ⟨a, [b, c], rest, rfl, rfl, ?_, ?_⟩
  · change 2 ^ 12 * (a.toNat - 0xE0) + 2 ^ 6 * (b.toNat - 0x80) + (c.toNat - 0x80) < 0x110000
    omega
  · exact encode_three (by omega) (by omega) ⟨by omega, by omega⟩ ⟨low₂, high₂⟩ (by omega) rfl

theorem spells_four {low high first last : Nat} {bytes : List UInt8}
    (fit : fits [(low, high), (first, last), (0x80, 0xBF), (0x80, 0xBF)] bytes = true)
    (inside : 0xF0 ≤ low ∧ high < 0xF5 ∧ 0x80 ≤ first ∧ last ≤ 0xBF)
    (short : low = 0xF0 → 0x90 ≤ first) (long : high = 0xF4 → last ≤ 0x8F) :
    Spells [(low, high), (first, last), (0x80, 0xBF), (0x80, 0xBF)] bytes := by
  obtain ⟨a, _, rfl, low₀, high₀, fit⟩ := exists_of_fits fit
  obtain ⟨b, _, rfl, low₁, high₁, fit⟩ := exists_of_fits fit
  obtain ⟨c, _, rfl, low₂, high₂, fit⟩ := exists_of_fits fit
  obtain ⟨d, rest, rfl, low₃, high₃, -⟩ := exists_of_fits fit
  refine ⟨a, [b, c, d], rest, rfl, rfl, ?_, ?_⟩
  · change 2 ^ 18 * (a.toNat - 0xF0) + 2 ^ 12 * (b.toNat - 0x80) + 2 ^ 6 * (c.toNat - 0x80) +
      (d.toNat - 0x80) < 0x110000
    omega
  · exact encode_four (by omega) (by omega) ⟨by omega, by omega⟩ ⟨low₂, high₂⟩ ⟨low₃, high₃⟩
      (by omega) rfl

theorem spells_of_fits {form : List (Nat × Nat)} (known : form ∈ forms) {bytes : List UInt8}
    (fit : fits form bytes = true) : Spells form bytes := by
  simp only [forms, List.mem_cons, List.not_mem_nil, or_false] at known
  rcases known with rfl | rfl | rfl | rfl | rfl | rfl | rfl | rfl | rfl | rfl
  · obtain ⟨a, rest, rfl, -, high, -⟩ := exists_of_fits fit
    have size : a.toNat < 0x80 := by omega
    exact ⟨a, [], rest, rfl, rfl, Nat.lt_trans size (by decide), encode_one size rfl⟩
  · exact spells_two fit (by decide)
  · exact spells_three fit (by decide) (by decide)
  · exact spells_three fit (by decide) (by decide)
  · exact spells_three fit (by decide) (by decide)
  · exact spells_three fit (by decide) (by decide)
  · exact spells_three fit (by decide) (by decide)
  · exact spells_four fit (by decide) (by decide) (by decide)
  · exact spells_four fit (by decide) (by decide) (by decide)
  · exact spells_four fit (by decide) (by decide) (by decide)

theorem fits_continuation (n : Nat) {form : List (Nat × Nat)} {bytes : List UInt8}
    (later : fits form bytes = true) :
    fits ((0x80, 0xBF) :: form) (continuation n :: bytes) = true :=
  fits_cons.2 ⟨trails_continuation n, later⟩

theorem exists_form_three {c : Nat} (low : 0x800 ≤ c) (high : c < 0x10000) (rest : List UInt8) :
    ∃ form ∈ forms, fits form ((0xE0 + c / 4096).toUInt8 :: continuation (c / 64) ::
      continuation c :: rest) = true := by
  have lead : (0xE0 + c / 4096).toUInt8.toNat = 0xE0 + c / 4096 := toNat_toUInt8 (by omega)
  have second : (continuation (c / 64)).toNat = 0x80 + c / 64 % 64 := toNat_continuation _
  have row (range range' : Nat × Nat) (known : [range, range', (0x80, 0xBF)] ∈ forms)
      (inside : range.1 ≤ 0xE0 + c / 4096 ∧ 0xE0 + c / 4096 ≤ range.2)
      (inside' : range'.1 ≤ 0x80 + c / 64 % 64 ∧ 0x80 + c / 64 % 64 ≤ range'.2) :
      ∃ form ∈ forms, fits form ((0xE0 + c / 4096).toUInt8 :: continuation (c / 64) ::
        continuation c :: rest) = true := by
    refine ⟨_, known, fits_cons.2 ⟨?_, fits_cons.2 ⟨?_, fits_continuation c rfl⟩⟩⟩
    · rwa [lead]
    · rwa [second]
  by_cases first : c < 0x1000
  · exact row (0xE0, 0xE0) (0xA0, 0xBF) (by decide) (by omega) (by omega)
  by_cases below : c < 0xD000
  · exact row (0xE1, 0xEC) (0x80, 0xBF) (by decide) (by omega) (by omega)
  by_cases scalar : c < 0xD800
  · exact row (0xED, 0xED) (0x80, 0x9F) (by decide) (by omega) (by omega)
  by_cases surrogate : c < 0xE000
  · exact row (0xED, 0xED) (0xA0, 0xBF) (by decide) (by omega) (by omega)
  · exact row (0xEE, 0xEF) (0x80, 0xBF) (by decide) (by omega) (by omega)

theorem exists_form_four {c : Nat} (low : 0x10000 ≤ c) (high : c < 0x110000) (rest : List UInt8) :
    ∃ form ∈ forms, fits form ((0xF0 + c / 262144).toUInt8 :: continuation (c / 4096) ::
      continuation (c / 64) :: continuation c :: rest) = true := by
  have lead : (0xF0 + c / 262144).toUInt8.toNat = 0xF0 + c / 262144 := toNat_toUInt8 (by omega)
  have second : (continuation (c / 4096)).toNat = 0x80 + c / 4096 % 64 := toNat_continuation _
  have row (range range' : Nat × Nat) (known : [range, range', (0x80, 0xBF), (0x80, 0xBF)] ∈ forms)
      (inside : range.1 ≤ 0xF0 + c / 262144 ∧ 0xF0 + c / 262144 ≤ range.2)
      (inside' : range'.1 ≤ 0x80 + c / 4096 % 64 ∧ 0x80 + c / 4096 % 64 ≤ range'.2) :
      ∃ form ∈ forms, fits form ((0xF0 + c / 262144).toUInt8 :: continuation (c / 4096) ::
        continuation (c / 64) :: continuation c :: rest) = true := by
    refine ⟨_, known, fits_cons.2 ⟨?_, fits_cons.2 ⟨?_,
      fits_continuation (c / 64) (fits_continuation c rfl)⟩⟩⟩
    · rwa [lead]
    · rwa [second]
  by_cases first : c < 0x40000
  · exact row (0xF0, 0xF0) (0x90, 0xBF) (by decide) (by omega) (by omega)
  by_cases below : c < 0x100000
  · exact row (0xF1, 0xF3) (0x80, 0xBF) (by decide) (by omega) (by omega)
  · exact row (0xF4, 0xF4) (0x80, 0x8F) (by decide) (by omega) (by omega)

/-- Every code point has one of the forms. -/
theorem exists_form_of_encode {c : Nat} (high : c < 0x110000) (rest : List UInt8) :
    ∃ form ∈ forms, fits form (Utf8.encode c ++ rest) = true := by
  by_cases one : c < 0x80
  · have lead : c.toUInt8.toNat = c := toNat_toUInt8 (by omega)
    rw [Utf8.encode, if_pos one]
    exact ⟨[(0x00, 0x7F)], by decide, fits_cons.2 ⟨by omega, rfl⟩⟩
  by_cases two : c < 0x800
  · have lead : (0xC0 + c / 64).toUInt8.toNat = 0xC0 + c / 64 := toNat_toUInt8 (by omega)
    rw [Utf8.encode, if_neg one, if_pos two]
    exact ⟨[(0xC2, 0xDF), (0x80, 0xBF)], by decide,
      fits_cons.2 ⟨by omega, fits_continuation c rfl⟩⟩
  by_cases basic : c < 0x10000
  · rw [Utf8.encode, if_neg one, if_neg two, if_pos basic]
    exact exists_form_three (by omega) basic rest
  · rw [Utf8.encode, if_neg one, if_neg two, if_neg basic]
    exact exists_form_four (by omega) high rest

theorem token?_eq_codePoint {lead : UInt8} {rest : List UInt8}
    (apart : ¬(lead = 0xC0 ∧ rest.head? = some 0x80)) :
    token? lead rest = (codePoint lead rest).toOption := by
  rw [token?, if_neg apart]
  cases search : forms.find? (fits · (lead :: rest)) with
  | none =>
    cases read : codePoint lead rest with
    | error blame => rfl
    | ok found =>
      obtain ⟨c, more⟩ := found
      obtain ⟨high, tail, after, bytes, rfl, rfl⟩ := codePoint_eq_ok_iff.1 read
      obtain ⟨form, known, fit⟩ := exists_form_of_encode high after
      rw [bytes, List.cons_append] at fit
      exact absurd fit (List.find?_eq_none.1 search form known)
  | some form =>
    have known := List.mem_of_find?_eq_some search
    have fit := List.find?_some search
    obtain ⟨lead', tail, after, split, length, high, bytes⟩ := spells_of_fits known fit
    obtain ⟨rfl, rfl⟩ := List.cons.inj split
    rw [codePoint_of_encode high bytes after, Option.map_some, length, List.take_succ_cons,
      List.take_left]
    rfl

/-! ## Plain zeros between tokens -/

theorem consPlain_eq (b : UInt8) (rest : List UInt8) :
    consPlain b rest = b :: rest ∨
      ∃ tail, b = 0xC0 ∧ rest = 0x80 :: tail ∧ consPlain b rest = 0 :: tail := by
  unfold consPlain
  split
  · next tail => exact .inr ⟨tail, rfl, rfl, rfl⟩
  · exact .inl rfl

/-- Bytes that are not zero were there before the zeros were made plain. -/
theorem exists_of_plainZeros {bytes front back : List UInt8} (h : plainZeros bytes = front ++ back)
    (nonzero : ∀ b ∈ front, b ≠ 0) : ∃ rest, bytes = front ++ rest ∧ plainZeros rest = back := by
  induction front generalizing bytes with
  | nil => exact ⟨bytes, rfl, h⟩
  | cons b front ih =>
    obtain ⟨first, later⟩ := List.forall_mem_cons.1 nonzero
    cases bytes with
    | nil => cases h
    | cons a bytes =>
      change consPlain a (plainZeros bytes) = _ at h
      obtain same | ⟨tail, -, -, zero⟩ := consPlain_eq a (plainZeros bytes)
      · rw [same] at h
        obtain ⟨rfl, tails⟩ := List.cons.inj h
        obtain ⟨rest, rfl, plain⟩ := ih tails later
        exact ⟨rest, rfl, plain⟩
      · rw [zero] at h
        exact absurd (List.cons.inj h).1.symm first

theorem plainZeros_cons {lead : UInt8} {rest : List UInt8}
    (apart : ¬(lead = 0xC0 ∧ rest.head? = some 0x80)) :
    plainZeros (lead :: rest) = lead :: plainZeros rest := by
  obtain same | ⟨tail, rfl, second, -⟩ := consPlain_eq lead (plainZeros rest)
  · exact same
  · have nonzero : ∀ b ∈ [(0x80 : UInt8)], b ≠ 0 := List.forall_mem_singleton.2 (by decide)
    have front : plainZeros rest = [0x80] ++ tail := second
    obtain ⟨rest, rfl, -⟩ := exists_of_plainZeros front nonzero
    exact absurd ⟨rfl, rfl⟩ apart

/-- The bytes that follow a lead byte are kept, and what is behind them is made plain by itself. -/
theorem plainZeros_of_encode {c : Nat} {lead : UInt8} {tail : List UInt8}
    (bytes : Utf8.encode c = lead :: tail) (rest : List UInt8) :
    plainZeros (tail ++ rest) = tail ++ plainZeros rest := by
  refine plainZeros_append (fun b mem same => ?_) rest
  have trails := trails_of_encode bytes b mem
  rw [same] at trails
  exact absurd trails.2 (by decide)

theorem codePoint_plainZeros {lead : UInt8} {rest : List UInt8} {c more : Nat} :
    codePoint lead (plainZeros rest) = .ok (c, more) ↔ codePoint lead rest = .ok (c, more) := by
  rw [codePoint_eq_ok_iff, codePoint_eq_ok_iff]
  refine and_congr_right fun high => ?_
  constructor
  · rintro ⟨tail, after, bytes, split, length⟩
    have nonzero : ∀ b ∈ tail, b ≠ 0 := by
      intro b mem same
      have trails := trails_of_encode bytes b mem
      rw [same] at trails
      exact absurd trails.1 (by decide)
    obtain ⟨rest, rfl, -⟩ := exists_of_plainZeros split nonzero
    exact ⟨tail, rest, bytes, rfl, length⟩
  · rintro ⟨tail, after, bytes, rfl, length⟩
    exact ⟨tail, plainZeros after, bytes, plainZeros_of_encode bytes after, length⟩

theorem drop_plainZeros {lead : UInt8} {rest : List UInt8} {c more : Nat}
    (read : codePoint lead rest = .ok (c, more)) :
    (plainZeros rest).drop more = plainZeros (rest.drop more) := by
  obtain ⟨-, tail, after, bytes, rfl, rfl⟩ := codePoint_eq_ok_iff.1 read
  rw [plainZeros_of_encode bytes, List.drop_left, List.drop_left]

/-! ## Pairs joined on the way -/

/-- What was joined so far may still be joined with the next code point. -/
theorem reverse_foldl_joinOnto (before : Text) (d : CodePoint) (t : Text) :
    (t.foldl joinOnto (d :: before)).reverse = before.reverse ++ joinPairs (d :: t) := by
  induction t generalizing before d with
  | nil => rw [List.foldl_nil, List.reverse_cons]; rfl
  | cons c t ih =>
    rw [List.foldl_cons, joinOnto]
    split_ifs with surrogates
    · obtain ⟨high, low⟩ := Bool.and_eq_true_iff.1 surrogates
      have second : joinPairs (c :: t) = c :: joinPairs t :=
        consJoined_single fun _ _ both => not_isHighSurrogate low both.1
      have joined : joinPairs (pair d c :: t) = pair d c :: joinPairs t :=
        consJoined_single fun _ _ both => not_isHighSurrogate_pair d c both.1
      rw [ih, ← pair_eq high low, joined, joinPairs_cons d, second, consJoined_pair high low]
    · have apart : consJoined d (joinPairs (c :: t)) = d :: joinPairs (c :: t) :=
        consJoined_single fun e mem both =>
          surrogates (Bool.and_eq_true_iff.2 ⟨both.1, isLowSurrogate_of_head mem both.2⟩)
      rw [ih, joinPairs_cons d, apart, List.reverse_cons, List.append_assoc, List.singleton_append]

theorem joinPairs_eq_foldl (t : Text) : joinPairs t = (t.foldl joinOnto []).reverse := by
  cases t with
  | nil => rfl
  | cons c t => exact (reverse_foldl_joinOnto [] c t).symm

/-! ## One pass and three layers -/

theorem readUtf8_of_ok {lead : UInt8} {rest : List UInt8} {c more : Nat}
    (read : codePoint lead rest = .ok (c, more)) (position : Nat) (found : List CodePoint) :
    readUtf8 position found (lead :: rest) =
      readUtf8 (position + 1 + more) (c :: found) (rest.drop more) := by
  rw [readUtf8, read]

theorem readUtf8_of_error {lead : UInt8} {rest : List UInt8} {blame : Nat × Reason}
    (refused : codePoint lead rest = .error blame) (position : Nat) (found : List CodePoint) :
    ∃ fault, readUtf8 position found (lead :: rest) = .error fault := by
  rw [readUtf8, refused]
  exact ⟨_, rfl⟩

theorem token?_zero (rest : List UInt8) : token? 0xC0 (0x80 :: rest) = some (0, 1) :=
  if_pos ⟨rfl, rfl⟩

/-- Both ways of decoding go on from the same code points, joined or not. -/
theorem decodeOnto_eq {found : Text} {bytes : List UInt8} (position : Nat) {read : List CodePoint}
    (joined : found = read.reverse.foldl joinOnto []) :
    decodeOnto found bytes =
      ((readUtf8 position read (plainZeros bytes)).map joinPairs).toOption := by
  fun_induction decodeOnto found bytes generalizing position read with
  | case1 found =>
    have nothing : plainZeros [] = [] := rfl
    rw [nothing, readUtf8, joined, ← joinPairs_eq_foldl]
    rfl
  | case2 found lead rest refused =>
    have apart : ¬(lead = 0xC0 ∧ rest.head? = some 0x80) := by
      intro zero
      rw [token?, if_pos zero] at refused
      cases refused
    rw [token?_eq_codePoint apart] at refused
    cases layered : codePoint lead (plainZeros rest) with
    | ok answer =>
      rw [codePoint_plainZeros.1 layered] at refused
      cases refused
    | error blame =>
      obtain ⟨fault, failed⟩ := readUtf8_of_error layered position read
      rw [plainZeros_cons apart, failed]
      rfl
  | case3 found lead rest c more token ih =>
    have joined' : joinOnto found c = (c :: read).reverse.foldl joinOnto [] := by
      rw [List.reverse_cons, List.foldl_append, ← joined]
      rfl
    by_cases zero : lead = 0xC0 ∧ rest.head? = some 0x80
    · obtain ⟨rfl, second⟩ := zero
      obtain ⟨rest, rfl⟩ := List.head?_eq_some_iff.1 second
      rw [token?_zero] at token
      cases token
      have plain : codePoint 0 (plainZeros rest) = .ok (0, 0) := codePoint_one (by decide) _
      rw [plainZeros_zero, readUtf8_of_ok plain]
      exact ih (position + 1 + 0) joined'
    · have read' : codePoint lead rest = .ok (c, more) := by
        rw [token?_eq_codePoint zero] at token
        exact toOption_eq_some_iff.1 token
      rw [plainZeros_cons zero, readUtf8_of_ok (codePoint_plainZeros.2 read'),
        drop_plainZeros read']
      exact ih (position + 1 + more) joined'

/-- Decoding in layers and decoding in one pass refuse the same byte strings and find the same text
in all others. -/
theorem decode_eq_decodeTokens (bytes : List UInt8) :
    (∀ t, decode bytes = .ok t ↔ decodeTokens bytes = some t) ∧
      ((∃ fault, decode bytes = .error fault) ↔ decodeTokens bytes = none) := by
  have same : decodeTokens bytes = (decode bytes).toOption := decodeOnto_eq 0 rfl
  rw [same]
  cases decode bytes with
  | ok t => simp [Except.toOption]
  | error fault => simp [Except.toOption]

-- A cut three-byte form does not take in the bytes of a zero behind it, and a zero in two bytes
-- keeps surrogates apart.
example : decodeTokens [0xE2, 0x82, 0xC0, 0x80] = none ∧
    decodeTokens [0xED, 0xA0, 0xBD, 0xC0, 0x80, 0xED, 0xB8, 0x80] = some [0xD83D, 0, 0xDE00] := by
  decide +kernel

end ModifiedUtf8

end ClassOrder
