import ClassOrder.ClassFile.ModifiedUtf8
import ClassOrder.Proofs.Answers
import Mathlib.Data.List.Chain
import Mathlib.Tactic.IntervalCases
import Mathlib.Tactic.SplitIfs

/-!
# Strings of code units

The strings that a class file can hold are sequences of UTF-16 code units. Decoding undoes their
encoding (`decode_encode`), and a decoded text has no surrogate pair left (`joined_joinPairs`), so
it is the text of its own code units (`codePoints_codeUnits`).
-/

namespace ClassOrder

namespace ModifiedUtf8

open CodePoint

/-! ## Code units -/

/-- A unit takes the bytes of its code point, but for the zero unit. -/
def encodeUnit (u : UInt16) : List UInt8 := if u = 0 then [0xC0, 0x80] else Utf8.encode u.toNat

def encode (units : List UInt16) : List UInt8 := units.flatMap encodeUnit

/-- The code points of a sequence of code units. A high surrogate right before a low one gives the
upper ten bits of a supplementary code point, and the low one the lower ten. -/
def codePoints : List UInt16 → Text
  | u :: v :: units =>
    if isHighSurrogate u.toNat ∧ isLowSurrogate v.toNat then
      (0x10000 + 0x400 * (u.toNat % 0x400) + v.toNat % 0x400) :: codePoints units
    else u.toNat :: codePoints (v :: units)
  | [u] => [u.toNat]
  | [] => []

/-- The code units of a code point: itself, or a surrogate pair. -/
def unitsOf (c : CodePoint) : List UInt16 :=
  if c < 0x10000 then [c.toUInt16]
  else [(0xD800 + (c - 0x10000) / 0x400).toUInt16, (0xDC00 + c % 0x400).toUInt16]

def codeUnits (t : Text) : List UInt16 := t.flatMap unitsOf

/-- No high surrogate stands right before a low one. -/
def Joined (t : Text) : Prop := t.IsChain fun c d => ¬(isHighSurrogate c ∧ isLowSurrogate d)

/-! ## Bytes of a code point -/

theorem toNat_toUInt8 {n : Nat} (h : n < 256) : n.toUInt8.toNat = n :=
  UInt8.toNat_ofNat_of_lt h

theorem toNat_continuation (n : Nat) : (Utf8.continuation n).toNat = 0x80 + n % 64 :=
  toNat_toUInt8 (by omega)

theorem ofByte?_two {k : Nat} (low : 2 ≤ k) (high : k < 32) :
    Utf8.Lead.ofByte? (0xC0 + k) = some ⟨k, [(0x80, 0xBF)]⟩ := by
  interval_cases k <;> rfl

/-- The second byte of three keeps out overlong forms and surrogates. -/
theorem ofByte?_three {k : Nat} (high : k < 16) :
    Utf8.Lead.ofByte? (0xE0 + k) =
      some ⟨k, [(if k = 0 then 0xA0 else 0x80, if k = 13 then 0x9F else 0xBF), (0x80, 0xBF)]⟩ := by
  interval_cases k <;> rfl

theorem follow_nil (bits good : Nat) (rest : List UInt8) :
    Utf8.follow bits good [] rest = .ok bits := by
  rw [Utf8.follow]

theorem follow_continuation {low high n : Nat} (h : low ≤ 0x80 + n % 64 ∧ 0x80 + n % 64 ≤ high)
    (bits good : Nat) (ranges : List (Nat × Nat)) (rest : List UInt8) :
    Utf8.follow bits good ((low, high) :: ranges) (Utf8.continuation n :: rest) =
      Utf8.follow (64 * bits + n % 64) (good + 1) ranges rest := by
  rw [Utf8.follow, toNat_continuation, if_pos h, Nat.add_sub_cancel_left]

theorem decodeNext_eq {lead : UInt8} {bits : Nat} {ranges : List (Nat × Nat)}
    (h : Utf8.Lead.ofByte? lead.toNat = some ⟨bits, ranges⟩) (rest : List UInt8) :
    Utf8.decodeNext lead rest =
      (Utf8.follow bits 1 ranges rest).map fun c => (c, ranges.length) := by
  rw [Utf8.decodeNext, h]

theorem codePoint_one {c : Nat} (high : c < 0x80) (rest : List UInt8) :
    codePoint c.toUInt8 rest = .ok (c, 0) := by
  have lead : Utf8.Lead.ofByte? c.toUInt8.toNat = some ⟨c, []⟩ := by
    rw [toNat_toUInt8 (by omega), Utf8.Lead.ofByte?, if_pos high]
  rw [codePoint, decodeNext_eq lead, follow_nil]
  rfl

theorem codePoint_two {c : Nat} (low : 0x80 ≤ c) (high : c < 0x800) (rest : List UInt8) :
    codePoint (0xC0 + c / 64).toUInt8 (Utf8.continuation c :: rest) = .ok (c, 1) := by
  have lead : Utf8.Lead.ofByte? (0xC0 + c / 64).toUInt8.toNat = some ⟨c / 64, [(0x80, 0xBF)]⟩ := by
    rw [toNat_toUInt8 (by omega), ofByte?_two (by omega) (by omega)]
  have value : 64 * (c / 64) + c % 64 = c := by omega
  rw [codePoint, decodeNext_eq lead, follow_continuation (by omega), follow_nil, value]
  rfl

theorem decodeNext_three {c : Nat} (low : 0x800 ≤ c) (high : c < 0x10000)
    (scalar : ¬(0xD800 ≤ c ∧ c < 0xE000)) (rest : List UInt8) :
    Utf8.decodeNext (0xE0 + c / 4096).toUInt8
      (Utf8.continuation (c / 64) :: Utf8.continuation c :: rest) = .ok (c, 2) := by
  have lead : Utf8.Lead.ofByte? (0xE0 + c / 4096).toUInt8.toNat = some ⟨c / 4096,
      [(if c / 4096 = 0 then 0xA0 else 0x80, if c / 4096 = 13 then 0x9F else 0xBF),
        (0x80, 0xBF)]⟩ := by
    rw [toNat_toUInt8 (by omega), ofByte?_three (by omega)]
  have second : (if c / 4096 = 0 then 0xA0 else 0x80) ≤ 0x80 + c / 64 % 64 ∧
      0x80 + c / 64 % 64 ≤ if c / 4096 = 13 then 0x9F else 0xBF := by
    split_ifs <;> omega
  have value : 64 * (64 * (c / 4096) + c / 64 % 64) + c % 64 = c := by omega
  rw [decodeNext_eq lead, follow_continuation second, follow_continuation (by omega), follow_nil,
    value]
  rfl

/-- A surrogate is refused as UTF-8 and then read by the exception for surrogates. -/
theorem codePoint_surrogate {c : Nat} (low : 0xD800 ≤ c) (high : c < 0xE000) (rest : List UInt8) :
    codePoint 0xED (Utf8.continuation (c / 64) :: Utf8.continuation c :: rest) = .ok (c, 2) := by
  have refused : Utf8.decodeNext 0xED (Utf8.continuation (c / 64) :: Utf8.continuation c :: rest) =
      .error (1, .continuationByte) := by
    have second : ¬(0x80 ≤ 0x80 + c / 64 % 64 ∧ 0x80 + c / 64 % 64 ≤ 0x9F) := by omega
    have lead : Utf8.Lead.ofByte? (0xED : UInt8).toNat =
        some ⟨13, [(0x80, 0x9F), (0x80, 0xBF)]⟩ := rfl
    rw [decodeNext_eq lead, Utf8.follow, toNat_continuation, if_neg second]
    rfl
  have found : surrogate? (Utf8.continuation (c / 64) :: Utf8.continuation c :: rest) = some c := by
    have value : 0xD000 + 64 * (c / 64 % 64) + c % 64 = c := by omega
    rw [surrogate?, toNat_continuation, toNat_continuation, if_pos (by omega),
      Nat.add_sub_cancel_left, Nat.add_sub_cancel_left, value]
  rw [codePoint, refused, found]
  rfl

theorem codePoint_three {c : Nat} (low : 0x800 ≤ c) (high : c < 0x10000) (rest : List UInt8) :
    codePoint (0xE0 + c / 4096).toUInt8
      (Utf8.continuation (c / 64) :: Utf8.continuation c :: rest) = .ok (c, 2) := by
  by_cases surrogate : 0xD800 ≤ c ∧ c < 0xE000
  · have lead : 0xE0 + c / 4096 = 0xED := by omega
    rw [lead]
    exact codePoint_surrogate surrogate.1 surrogate.2 rest
  · rw [codePoint, decodeNext_three low high surrogate]

/-- The bytes of a code point of the basic plane are read back. -/
theorem codePoint_encode {c : Nat} (high : c < 0x10000) (rest : List UInt8) :
    ∃ lead tail, Utf8.encode c = lead :: tail ∧
      codePoint lead (tail ++ rest) = .ok (c, tail.length) := by
  unfold Utf8.encode
  split_ifs with one two
  · exact ⟨_, [], rfl, codePoint_one one rest⟩
  · exact ⟨_, [_], rfl, codePoint_two (Nat.le_of_not_lt one) two rest⟩
  · exact ⟨_, [_, _], rfl, codePoint_three (Nat.le_of_not_lt two) high rest⟩

theorem readUtf8_encode {c : Nat} (high : c < 0x10000) (position : Nat) (found : List CodePoint)
    (rest : List UInt8) :
    readUtf8 position found (Utf8.encode c ++ rest) =
      readUtf8 (position + (Utf8.encode c).length) (c :: found) rest := by
  obtain ⟨lead, tail, bytes, read⟩ := codePoint_encode high rest
  rw [bytes, List.cons_append, readUtf8, read]
  simp only [List.drop_left, List.length_cons]
  congr 1
  omega

theorem readUtf8_flatMap_encode {cs : List CodePoint} (high : ∀ c ∈ cs, c < 0x10000)
    (position : Nat) (found : List CodePoint) :
    readUtf8 position found (cs.flatMap Utf8.encode) = .ok (found.reverse ++ cs) := by
  induction cs generalizing position found with
  | nil => simp [readUtf8]
  | cons c cs ih =>
    obtain ⟨first, later⟩ := List.forall_mem_cons.1 high
    rw [List.flatMap_cons, readUtf8_encode first, ih later]
    simp

/-! ## Zero bytes -/

theorem consPlain_of_ne {b : UInt8} (h : b ≠ 0xC0) (rest : List UInt8) :
    consPlain b rest = b :: rest := by
  unfold consPlain
  split
  · exact absurd rfl h
  · rfl

theorem plainZeros_zero (rest : List UInt8) :
    plainZeros (0xC0 :: 0x80 :: rest) = 0 :: plainZeros rest := by
  have second : consPlain 0x80 (plainZeros rest) = 0x80 :: plainZeros rest :=
    consPlain_of_ne (by decide) _
  change consPlain 0xC0 (consPlain 0x80 (plainZeros rest)) = _
  rw [second]
  rfl

theorem plainZeros_append {front : List UInt8} (h : ∀ b ∈ front, b ≠ 0xC0) (rest : List UInt8) :
    plainZeros (front ++ rest) = front ++ plainZeros rest := by
  induction front with
  | nil => rfl
  | cons b front ih =>
    obtain ⟨first, later⟩ := List.forall_mem_cons.1 h
    change consPlain b (plainZeros (front ++ rest)) = _
    rw [consPlain_of_ne first, ih later]
    rfl

/-- Only the zero unit is encoded with the byte `C0`. -/
theorem ne_of_mem_encode {c : Nat} (high : c < 0x10000) {b : UInt8} (mem : b ∈ Utf8.encode c) :
    b ≠ 0xC0 := by
  have follows (n : Nat) : (Utf8.continuation n).toNat ≠ 0xC0 := by
    rw [toNat_continuation]
    omega
  have byte : b.toNat ≠ 0xC0 := by
    unfold Utf8.encode at mem
    split_ifs at mem with one two
    · rw [List.mem_singleton.1 mem, toNat_toUInt8 (Nat.lt_trans one (by decide))]
      exact Nat.ne_of_lt (Nat.lt_trans one (by decide))
    · have low : 0x80 ≤ c := Nat.le_of_not_lt one
      have high : c < 0x800 := two
      simp only [List.mem_cons, List.not_mem_nil, or_false] at mem
      rcases mem with rfl | rfl
      · rw [toNat_toUInt8 (by omega)]
        omega
      · exact follows c
    · simp only [List.mem_cons, List.not_mem_nil, or_false] at mem
      rcases mem with rfl | rfl | rfl
      · rw [toNat_toUInt8 (by omega)]
        omega
      · exact follows (c / 64)
      · exact follows c
  exact fun same => byte (congrArg UInt8.toNat same)

theorem plainZeros_encode (units : List UInt16) :
    plainZeros (encode units) = (units.map UInt16.toNat).flatMap Utf8.encode := by
  induction units with
  | nil => rfl
  | cons u units ih =>
    rw [encode, List.flatMap_cons, ← encode, List.map_cons, List.flatMap_cons, encodeUnit]
    split_ifs with zero
    · subst zero
      change plainZeros (0xC0 :: 0x80 :: encode units) = _
      rw [plainZeros_zero, ih]
      rfl
    · rw [plainZeros_append (fun b mem => ne_of_mem_encode u.toNat_lt mem), ih]

/-! ## Surrogate pairs -/

theorem isHighSurrogate_iff {c : Nat} : isHighSurrogate c ↔ 0xD800 ≤ c ∧ c ≤ 0xDBFF := by
  rw [isHighSurrogate, Bool.and_eq_true, decide_eq_true_iff, decide_eq_true_iff]

theorem isLowSurrogate_iff {c : Nat} : isLowSurrogate c ↔ 0xDC00 ≤ c ∧ c ≤ 0xDFFF := by
  rw [isLowSurrogate, Bool.and_eq_true, decide_eq_true_iff, decide_eq_true_iff]

theorem not_isHighSurrogate {c : Nat} (h : isLowSurrogate c) : ¬isHighSurrogate c := by
  rw [isLowSurrogate_iff] at h
  rw [isHighSurrogate_iff]
  omega

theorem pair_eq {c d : Nat} (high : isHighSurrogate c) (low : isLowSurrogate d) :
    pair c d = 0x10000 + 0x400 * (c % 0x400) + d % 0x400 := by
  rw [isHighSurrogate_iff] at high
  rw [isLowSurrogate_iff] at low
  have upper : c % 0x400 = c - 0xD800 := by omega
  have lower : d % 0x400 = d - 0xDC00 := by omega
  unfold pair
  rw [upper, lower]

theorem pair_lt {c d : Nat} (high : isHighSurrogate c) (low : isLowSurrogate d) :
    pair c d < 0x110000 := by
  have value : 0x10000 + 0x400 * (c % 0x400) + d % 0x400 < 0x110000 := by omega
  rwa [← pair_eq high low] at value

theorem le_pair (c d : CodePoint) : 0x10000 ≤ pair c d :=
  Nat.le_trans (Nat.le_add_right ..) (Nat.le_add_right ..)

theorem not_isLowSurrogate_pair (c d : CodePoint) : ¬isLowSurrogate (pair c d) := by
  rw [isLowSurrogate_iff]
  exact fun low => absurd (Nat.le_trans (le_pair c d) low.2) (by decide)

theorem not_isHighSurrogate_pair (c d : CodePoint) : ¬isHighSurrogate (pair c d) := by
  rw [isHighSurrogate_iff]
  exact fun high => absurd (Nat.le_trans (le_pair c d) high.2) (by decide)

theorem consJoined_pair {c d : CodePoint} (high : isHighSurrogate c) (low : isLowSurrogate d)
    (rest : Text) : consJoined c (d :: rest) = pair c d :: rest := by
  rw [consJoined, if_pos]
  rw [high, low]
  rfl

theorem consJoined_single {c : CodePoint} {rest : Text}
    (h : ∀ d ∈ rest.head?, ¬(isHighSurrogate c ∧ isLowSurrogate d)) :
    consJoined c rest = c :: rest := by
  cases rest with
  | nil => rfl
  | cons d rest =>
    have apart := h d rfl
    rw [consJoined, if_neg]
    rwa [Bool.and_eq_true]

theorem joinPairs_cons (c : CodePoint) (t : Text) :
    joinPairs (c :: t) = consJoined c (joinPairs t) := rfl

/-- Joined or not, a text starts with a low surrogate only if it did so before. -/
theorem isLowSurrogate_of_head {c d : CodePoint} {t : Text} (mem : d ∈ (joinPairs (c :: t)).head?)
    (low : isLowSurrogate d) : isLowSurrogate c := by
  rw [joinPairs_cons] at mem
  unfold consJoined at mem
  split at mem
  · split_ifs at mem
    · rw [← Option.mem_some_iff.1 mem] at low
      exact absurd low (not_isLowSurrogate_pair _ _)
    · rwa [Option.mem_some_iff.1 mem]
  · rwa [Option.mem_some_iff.1 mem]

theorem joinPairs_units (units : List UInt16) :
    joinPairs (units.map UInt16.toNat) = codePoints units := by
  fun_induction codePoints units with
  | case1 u v units surrogates ih =>
    obtain ⟨high, low⟩ := surrogates
    have second : joinPairs ((v :: units).map UInt16.toNat) =
        v.toNat :: joinPairs (units.map UInt16.toNat) :=
      consJoined_single fun _ _ both => not_isHighSurrogate low both.1
    rw [List.map_cons, joinPairs_cons, second, consJoined_pair high low, pair_eq high low, ih]
  | case2 u v units apart ih =>
    rw [List.map_cons, joinPairs_cons, consJoined_single, ih]
    intro d mem both
    exact apart ⟨both.1, isLowSurrogate_of_head mem both.2⟩
  | case3 u => rfl
  | case4 => rfl

/-- Decoding undoes the encoding of code units. -/
theorem decode_encode (units : List UInt16) : decode (encode units) = .ok (codePoints units) := by
  have high : ∀ c ∈ units.map UInt16.toNat, c < 0x10000 := by
    intro c mem
    obtain ⟨u, -, rfl⟩ := List.mem_map.1 mem
    exact u.toNat_lt
  rw [decode, plainZeros_encode, readUtf8_flatMap_encode high, ← joinPairs_units]
  rfl

/-! ## Decoded texts -/

theorem joined_joinPairs (t : Text) : Joined (joinPairs t) := by
  induction t with
  | nil => exact .nil
  | cons c t ih =>
    rw [joinPairs_cons]
    cases h : joinPairs t with
    | nil => exact .singleton c
    | cons d rest =>
      rw [h] at ih
      rw [consJoined]
      split_ifs with surrogates
      · refine List.isChain_cons.2 ⟨fun e _ both => ?_, (List.isChain_cons.1 ih).2⟩
        exact not_isHighSurrogate_pair c d both.1
      · rw [Bool.and_eq_true] at surrogates
        exact List.isChain_cons_cons.2 ⟨surrogates, ih⟩

/-- Every continuation byte adds six bits. -/
theorem follow_lt {bits good : Nat} {ranges : List (Nat × Nat)} {rest : List UInt8} {c : Nat}
    (h : Utf8.follow bits good ranges rest = .ok c) (bound : ∀ range ∈ ranges, range.2 ≤ 0xBF) :
    c < (bits + 1) * 64 ^ ranges.length := by
  fun_induction Utf8.follow bits good ranges rest with
  | case1 bits good rest =>
    cases h
    simp
  | case2 bits good range ranges => cases h
  | case3 bits good low high ranges b rest inside ih =>
    obtain ⟨first, later⟩ := List.forall_mem_cons.1 bound
    have six : 64 * bits + (b.toNat - 0x80) + 1 ≤ (bits + 1) * 64 := by omega
    calc c < (64 * bits + (b.toNat - 0x80) + 1) * 64 ^ ranges.length := ih h later
      _ ≤ (bits + 1) * 64 * 64 ^ ranges.length := Nat.mul_le_mul_right _ six
      _ = (bits + 1) * 64 ^ (ranges.length + 1) := by rw [Nat.mul_assoc, Nat.pow_succ']
  | case4 => cases h

/-- What a lead byte announces stays inside the code space, but for the last lead byte. -/
theorem ofByte?_bound {b : Nat} (byte : b < 256) {lead : Utf8.Lead}
    (h : Utf8.Lead.ofByte? b = some lead) :
    (∀ range ∈ lead.ranges, range.2 ≤ 0xBF) ∧
      ((lead.bits + 1) * 64 ^ lead.ranges.length ≤ 0x110000 ∨
        lead.bits = 4 ∧ lead.ranges = [(0x80, 0x8F), (0x80, 0xBF), (0x80, 0xBF)]) := by
  have each : ∀ b < 256, ∀ lead ∈ Utf8.Lead.ofByte? b,
      (∀ range ∈ lead.ranges, range.2 ≤ 0xBF) ∧
        ((lead.bits + 1) * 64 ^ lead.ranges.length ≤ 0x110000 ∨
          lead.bits = 4 ∧ lead.ranges = [(0x80, 0x8F), (0x80, 0xBF), (0x80, 0xBF)]) := by
    decide +kernel
  exact each b byte lead h

/-- Under the last lead byte, the range of the second byte ends the code space. -/
theorem follow_last_lt {good : Nat} {rest : List UInt8} {c : Nat}
    (h : Utf8.follow 4 good [(0x80, 0x8F), (0x80, 0xBF), (0x80, 0xBF)] rest = .ok c) :
    c < 0x110000 := by
  cases rest with
  | nil => cases h
  | cons b rest =>
    rw [Utf8.follow] at h
    split_ifs at h with inside
    have bound := follow_lt h (by decide)
    simp only [List.length_cons, List.length_nil] at bound
    omega

theorem decodeNext_lt {lead : UInt8} {rest : List UInt8} {c more : Nat}
    (h : Utf8.decodeNext lead rest = .ok (c, more)) : c < 0x110000 := by
  unfold Utf8.decodeNext at h
  split at h
  · cases h
  · next bits ranges known =>
    obtain ⟨c', followed, same⟩ := map_eq_ok.1 h
    cases same
    obtain ⟨high, inside | ⟨rfl, rfl⟩⟩ := ofByte?_bound lead.toNat_lt known
    · exact Nat.lt_of_lt_of_le (follow_lt followed high) inside
    · exact follow_last_lt followed

theorem surrogate?_lt {rest : List UInt8} {c : Nat} (h : surrogate? rest = some c) :
    c < 0x110000 := by
  unfold surrogate? at h
  split at h
  · split_ifs at h with inside
    rw [← Option.some.inj h]
    omega
  · cases h

theorem codePoint_lt {lead : UInt8} {rest : List UInt8} {c more : Nat}
    (h : codePoint lead rest = .ok (c, more)) : c < 0x110000 := by
  unfold codePoint at h
  split at h
  · next next =>
    cases h
    exact decodeNext_lt next
  · split at h
    · next surrogate _ =>
      cases h
      exact surrogate?_lt surrogate
    · cases h

theorem readUtf8_lt {position : Nat} {found : List CodePoint} {bytes : List UInt8} {t : Text}
    (h : readUtf8 position found bytes = .ok t) (before : ∀ c ∈ found, c < 0x110000) :
    ∀ c ∈ t, c < 0x110000 := by
  fun_induction readUtf8 position found bytes with
  | case1 position found =>
    cases h
    simpa using before
  | case2 => cases h
  | case3 position found lead rest c more read ih =>
    exact ih h (List.forall_mem_cons.2 ⟨codePoint_lt read, before⟩)

theorem joinPairs_lt {t : Text} (h : ∀ c ∈ t, c < 0x110000) : ∀ c ∈ joinPairs t, c < 0x110000 := by
  induction t with
  | nil => simp [joinPairs]
  | cons c t ih =>
    obtain ⟨first, later⟩ := List.forall_mem_cons.1 h
    have joined := ih later
    rw [joinPairs_cons]
    unfold consJoined
    split
    · next d rest eq =>
      rw [eq] at joined
      split_ifs with surrogates
      · rw [Bool.and_eq_true] at surrogates
        refine List.forall_mem_cons.2 ⟨?_, (List.forall_mem_cons.1 joined).2⟩
        exact pair_lt surrogates.1 surrogates.2
      · exact List.forall_mem_cons.2 ⟨first, joined⟩
    · exact List.forall_mem_cons.2 ⟨first, by simp⟩

theorem joined_and_lt_of_decode {bytes : List UInt8} {t : Text} (h : decode bytes = .ok t) :
    Joined t ∧ ∀ c ∈ t, c < 0x110000 := by
  obtain ⟨read, found, rfl⟩ := map_eq_ok.1 h
  exact ⟨joined_joinPairs read, joinPairs_lt (readUtf8_lt found (by simp))⟩

/-! ## Texts as code units -/

theorem codePoints_pair {u v : UInt16} (high : isHighSurrogate u.toNat)
    (low : isLowSurrogate v.toNat) (units : List UInt16) :
    codePoints (u :: v :: units) =
      (0x10000 + 0x400 * (u.toNat % 0x400) + v.toNat % 0x400) :: codePoints units := by
  rw [codePoints, if_pos ⟨high, low⟩]

theorem codePoints_single {u : UInt16} {units : List UInt16}
    (h : ∀ v ∈ units.head?, ¬(isHighSurrogate u.toNat ∧ isLowSurrogate v.toNat)) :
    codePoints (u :: units) = u.toNat :: codePoints units := by
  cases units with
  | nil => rfl
  | cons v units => rw [codePoints, if_neg (h v rfl)]

theorem toNat_toUInt16 {n : Nat} (h : n < 0x10000) : n.toUInt16.toNat = n :=
  UInt16.toNat_ofNat_of_lt h

/-- The two units of a supplementary code point are a surrogate pair that gives it back. -/
theorem exists_unitsOf_eq {c : Nat} (low : 0x10000 ≤ c) (high : c < 0x110000) :
    ∃ u v, unitsOf c = [u, v] ∧ isHighSurrogate u.toNat ∧ isLowSurrogate v.toNat ∧
      0x10000 + 0x400 * (u.toNat % 0x400) + v.toNat % 0x400 = c := by
  refine ⟨_, _, if_neg (Nat.not_lt.2 low), ?_⟩
  rw [toNat_toUInt16 (by omega), toNat_toUInt16 (by omega), isHighSurrogate_iff, isLowSurrogate_iff]
  omega

theorem exists_head_of_codeUnits {t : Text} {v : UInt16} (high : ∀ c ∈ t, c < 0x110000)
    (mem : v ∈ (codeUnits t).head?) (low : isLowSurrogate v.toNat) :
    ∃ d ∈ t.head?, isLowSurrogate d := by
  cases t with
  | nil => cases mem
  | cons c t =>
    refine ⟨c, rfl, ?_⟩
    rw [codeUnits, List.flatMap_cons] at mem
    by_cases basic : c < 0x10000
    · rw [unitsOf, if_pos basic] at mem
      rw [← Option.mem_some_iff.1 mem, toNat_toUInt16 basic] at low
      exact low
    · obtain ⟨u, w, units, isHigh, -, -⟩ :=
        exists_unitsOf_eq (Nat.not_lt.1 basic) (high c (List.mem_cons_self ..))
      rw [units] at mem
      rw [← Option.mem_some_iff.1 mem] at low
      exact absurd isHigh (not_isHighSurrogate low)

theorem codePoints_codeUnits {t : Text} (joined : Joined t) (high : ∀ c ∈ t, c < 0x110000) :
    codePoints (codeUnits t) = t := by
  induction t with
  | nil => rfl
  | cons c t ih =>
    obtain ⟨first, later⟩ := List.forall_mem_cons.1 high
    obtain ⟨apart, joined⟩ := List.isChain_cons.1 joined
    have rest := ih joined later
    rw [codeUnits, List.flatMap_cons, ← codeUnits]
    by_cases basic : c < 0x10000
    · have value := toNat_toUInt16 basic
      rw [unitsOf, if_pos basic, List.singleton_append, codePoints_single, rest, value]
      intro v mem surrogates
      rw [value] at surrogates
      obtain ⟨d, hd, low⟩ := exists_head_of_codeUnits later mem surrogates.2
      exact apart d hd ⟨surrogates.1, low⟩
    · obtain ⟨u, v, units, isHigh, isLow, value⟩ := exists_unitsOf_eq (Nat.not_lt.1 basic) first
      rw [units, List.cons_append, List.singleton_append, codePoints_pair isHigh isLow, value, rest]

/-- Code units are encoded and decoded without loss, and so is every decoded text, in which no
surrogate pair is left. -/
theorem decode_roundTrip :
    (∀ units : List UInt16, decode (encode units) = .ok (codePoints units)) ∧
      ∀ (bytes : List UInt8) (t : Text), decode bytes = .ok t →
        Joined t ∧ decode (encode (codeUnits t)) = .ok t := by
  refine ⟨decode_encode, fun bytes t read => ?_⟩
  obtain ⟨joined, high⟩ := joined_and_lt_of_decode read
  refine ⟨joined, ?_⟩
  rw [decode_encode, codePoints_codeUnits joined high]

-- Of two high units before two low ones only the inner two are a pair.
example : decode (encode [0, 0xD83D, 0xD83D, 0xDE00, 0xDE00, 0x4C]) =
    .ok [0, 0xD83D, 0x1F600, 0xDE00, 0x4C] := by
  decide +kernel

end ModifiedUtf8

end ClassOrder
