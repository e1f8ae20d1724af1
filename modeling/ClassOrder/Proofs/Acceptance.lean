import ClassOrder.ClassFile.References
import ClassOrder.Proofs.Answers
import ClassOrder.Proofs.Reads

/-!
# Which byte strings are class files

The reader of class files takes exactly the strings of the grammar off the front of its stream
(`reads_file`), so a byte string is accepted if and only if the grammar derives one of its prefixes.
-/

namespace ClassOrder

open Grammar Reader

/-! ## Numbers -/

theorem reads_u1 : Reads u1 fun n bytes => ∃ b : UInt8, b.toNat = n ∧ bytes = [b] := by
  refine ((Reads.take 1).map bigEndian).congr fun n bytes => ?_
  have value (b : UInt8) : bigEndian [b] = b.toNat := by simp [bigEndian]
  constructor
  · rintro ⟨taken, ⟨rfl, length⟩, rfl⟩
    obtain ⟨b, rfl⟩ := List.length_eq_one_iff.1 length
    exact ⟨b, (value b).symm, rfl⟩
  · rintro ⟨b, rfl, rfl⟩
    exact ⟨[b], ⟨rfl, rfl⟩, (value b).symm⟩

theorem reads_u2 : Reads u2 U2 := by
  refine ((Reads.take 2).map bigEndian).congr fun n bytes => ?_
  have value (a b : UInt8) : bigEndian [a, b] = 2 ^ 8 * a.toNat + b.toNat := by simp [bigEndian]
  constructor
  · rintro ⟨taken, ⟨rfl, length⟩, rfl⟩
    obtain ⟨a, b, rfl⟩ := List.length_eq_two.1 length
    rw [value]
    exact .intro a b
  · rintro ⟨a, b⟩
    exact ⟨[a, b], ⟨rfl, rfl⟩, (value a b).symm⟩

theorem reads_u4 : Reads u4 U4 := by
  refine ((Reads.take 4).map bigEndian).congr fun n bytes => ?_
  have value (a b c d : UInt8) : bigEndian [a, b, c, d] =
      2 ^ 24 * a.toNat + 2 ^ 16 * b.toNat + 2 ^ 8 * c.toNat + d.toNat := by
    simp only [bigEndian, List.foldl_cons, List.foldl_nil]
    omega
  constructor
  · rintro ⟨taken, ⟨rfl, length⟩, rfl⟩
    match bytes, length with
    | [a, b, c, d], _ =>
      rw [value]
      exact .intro a b c d
  · rintro ⟨a, b, c, d⟩
    exact ⟨[a, b, c, d], ⟨rfl, rfl⟩, (value a b c d).symm⟩

/-! ## Constants -/

theorem mem_plainTags_iff {tag : UInt8} {size : Nat} {wide : Bool} :
    (tag, size, wide) ∈ plainTags ↔
      Constant.payloadSize? tag.toNat = some size ∧ Constant.isWideTag tag.toNat = wide := by
  constructor
  · have listed : ∀ entry ∈ plainTags, Constant.payloadSize? entry.1.toNat = some entry.2.1 ∧
        Constant.isWideTag entry.1.toNat = entry.2.2 := by decide
    exact listed (tag, size, wide)
  · rintro ⟨known, rfl⟩
    unfold Constant.payloadSize? at known
    split at known <;> cases known <;> rename_i equal <;>
      simp [plainTags, ← UInt8.toNat_inj, Constant.isWideTag, equal]

theorem ne_of_mem_plainTags {tag : UInt8} {size : Nat} {wide : Bool}
    (known : (tag, size, wide) ∈ plainTags) : tag.toNat ≠ 1 ∧ tag.toNat ≠ 7 := by
  obtain ⟨known, -⟩ := mem_plainTags_iff.1 known
  constructor
  · intro equal
    rw [equal] at known
    cases known
  · intro equal
    rw [equal] at known
    cases known

theorem lt_of_payloadSize? {tag size : Nat} (known : Constant.payloadSize? tag = some size) :
    tag < 256 := by
  unfold Constant.payloadSize? at known
  split at known <;> first | omega | cases known

theorem reads_text : Reads Reader.text Encoded := by
  refine (reads_u2.bind fun size => (Reads.take size).check fun payload =>
    (ModifiedUtf8.decode payload).mapError .encoding).congr fun value bytes => ?_
  simp only [mapError_eq_ok]
  constructor
  · rintro ⟨size, p, payload, number, ⟨_, ⟨rfl, length⟩, ok⟩, rfl⟩
    exact .intro number length ok
  · rintro ⟨number, length, ok⟩
    exact ⟨_, _, _, number, ⟨_, ⟨rfl, length⟩, ok⟩, rfl⟩

/-- What may follow a tag. -/
def AfterTag (tag : Nat) : Language Constant :=
  fun constant bytes => ∃ b : UInt8, b.toNat = tag ∧ Entry constant (b :: bytes)

theorem afterTag_text {constant : Constant} {bytes : List UInt8} : AfterTag 1 constant bytes ↔
    ∃ value, Encoded value bytes ∧ constant = .text value := by
  constructor
  · rintro ⟨b, tag, entry⟩
    cases entry with
    | text encoded => exact ⟨_, encoded, rfl⟩
    | classRef number => exact absurd tag (by decide)
    | other known length => exact absurd tag (ne_of_mem_plainTags known).1
  · rintro ⟨value, encoded, rfl⟩
    exact ⟨1, rfl, .text encoded⟩

theorem afterTag_classRef {constant : Constant} {bytes : List UInt8} : AfterTag 7 constant bytes ↔
    ∃ nameSlot, U2 nameSlot bytes ∧ constant = .classRef nameSlot := by
  constructor
  · rintro ⟨b, tag, entry⟩
    cases entry with
    | text encoded => exact absurd tag (by decide)
    | classRef number => exact ⟨_, number, rfl⟩
    | other known length => exact absurd tag (ne_of_mem_plainTags known).2
  · rintro ⟨nameSlot, number, rfl⟩
    exact ⟨7, rfl, .classRef number⟩

theorem afterTag_other {tag : Nat} (text : tag ≠ 1) (classRef : tag ≠ 7) {constant : Constant}
    {bytes : List UInt8} : AfterTag tag constant bytes ↔
      Constant.payloadSize? tag = some bytes.length ∧
        constant = .other (Constant.isWideTag tag) := by
  constructor
  · rintro ⟨b, rfl, entry⟩
    cases entry with
    | text encoded => exact absurd rfl text
    | classRef number => exact absurd rfl classRef
    | other known length =>
      obtain ⟨size, rfl⟩ := mem_plainTags_iff.1 known
      exact ⟨by rw [size, length], rfl⟩
  · rintro ⟨size, rfl⟩
    have same : (UInt8.ofNat tag).toNat = tag :=
      UInt8.toNat_ofNat_of_lt (lt_of_payloadSize? size)
    refine ⟨UInt8.ofNat tag, same, .other (mem_plainTags_iff.2 ?_) rfl⟩
    rw [same]
    exact ⟨size, rfl⟩

theorem reads_constant (index : Nat) : Reads (Constant.read index) Entry := by
  unfold Constant.read
  refine (reads_u1.bind fun tag => (?_ : Reads _ (AfterTag tag))).congr fun constant bytes => ?_
  · split_ifs with text classRef
    · subst text
      exact (reads_text.bind_pure Constant.text).congr fun _ _ => afterTag_text.symm
    · subst classRef
      exact (reads_u2.bind_pure Constant.classRef).congr fun _ _ => afterTag_classRef.symm
    · split
      · next size known =>
        refine ((Reads.skip size).bind_pure fun _ => Constant.other _).congr fun constant bytes => ?_
        rw [afterTag_other text classRef, known, Option.some.injEq]
        exact ⟨fun ⟨_, length, equal⟩ => ⟨length.symm, equal⟩,
          fun ⟨length, equal⟩ => ⟨(), length.symm, equal⟩⟩
      · next unknown =>
        refine (Reads.never fun _ _ _ h => by cases h).congr fun constant bytes => ?_
        rw [afterTag_other text classRef, unknown]
        simp
  · constructor
    · rintro ⟨_, _, rest, ⟨a, rfl, rfl⟩, ⟨b, same, entry⟩, rfl⟩
      obtain rfl := UInt8.toNat_inj.1 same
      exact entry
    · intro entry
      obtain ⟨b, rest, rfl⟩ : ∃ b rest, bytes = b :: rest := by cases entry <;> exact ⟨_, _, rfl⟩
      exact ⟨b.toNat, [b], rest, ⟨b, rfl, rfl⟩, ⟨b, rfl, entry⟩, rfl⟩

/-! ## The constant pool -/

namespace ConstantPool

/-- The constants of the pool, each behind the slot at which it starts. -/
def entries (pool : ConstantPool) : Pool :=
  pool.slots.toList.zipIdx.filterMap fun entry => entry.1.map (entry.2, ·)

theorem mem_entries {pool : ConstantPool} {slot : Nat} {constant : Constant} :
    (slot, constant) ∈ pool.entries ↔ pool.constant? slot = some constant := by
  simp [entries, constant?, List.mem_filterMap, List.mem_zipIdx_iff_getElem?,
    Option.join_eq_some_iff]

theorem entries_push (pool : ConstantPool) (constant : Constant) :
    (pool.push constant).entries = pool.entries ++ [(pool.size, constant)] := by
  unfold push entries
  split <;> simp [List.zipIdx_append, size]

theorem classNameIndices_eq (pool : ConstantPool) :
    pool.classNameIndices = pool.entries.nameSlots := by
  unfold classNameIndices entries Pool.nameSlots
  rw [List.filterMap_filterMap]
  conv_lhs => rw [← List.zipIdx_map_fst 0 pool.slots.toList, List.filterMap_map]
  congr 1
  funext entry
  obtain ⟨_ | _ | _ | _, slot⟩ := entry <;> rfl

theorem text_eq_ok {pool : ConstantPool} {slot : Nat} {value : Text} :
    pool.text slot = .ok value ↔ pool.entries.TextAt slot value := by
  rw [Pool.TextAt, mem_entries]
  unfold text
  split
  · next found => simp [found]
  · next other =>
    refine iff_of_false (fun h => ?_) (other value)
    cases h

theorem className_eq_ok {pool : ConstantPool} {slot : Nat} {name : Text} :
    pool.className slot = .ok name ↔ pool.entries.ClassAt slot name := by
  simp only [Pool.ClassAt, mem_entries, ← text_eq_ok]
  unfold className
  split
  · next nameSlot found => simp [found]
  · next other =>
    refine iff_of_false (fun h => ?_) (fun ⟨nameSlot, found, _⟩ => other nameSlot found)
    cases h

theorem classNames_eq_ok {pool : ConstantPool} {names : List Text} :
    pool.classNames = .ok names ↔
      List.Forall₂ pool.entries.TextAt pool.entries.nameSlots names := by
  rw [classNames, classNameIndices_eq, mapM_eq_ok_iff]
  simp only [text_eq_ok]

/-- The pool after more constants were put into it. -/
def extend (pool : ConstantPool) (more : Pool) : ConstantPool :=
  more.foldl (fun pool entry => pool.push entry.2) pool

theorem entries_extend {count : Nat} {pool : ConstantPool} {more : Pool} {bytes : List UInt8}
    (h : Slots count pool.size more bytes) :
    (pool.extend more).entries = pool.entries ++ more := by
  induction more generalizing pool bytes with
  | nil => exact (List.append_nil _).symm
  | cons entry more ih =>
    cases h with
    | @entry _ constant _ p q _ _ rest =>
      rw [← size_push] at rest
      calc (pool.extend ((pool.size, constant) :: more)).entries
          = (pool.push constant).entries ++ more := ih rest
        _ = pool.entries ++ (pool.size, constant) :: more := by
          rw [entries_push, List.append_assoc, List.singleton_append]

theorem reads_fill (count : Nat) (pool : ConstantPool) :
    Reads (fill count pool) fun built bytes =>
      ∃ more, Slots count pool.size more bytes ∧ built = pool.extend more := by
  fun_induction fill count pool with
  | case1 pool free ih =>
    refine ((reads_constant pool.size).bind fun constant => ih constant).congr
      fun built bytes => ?_
    constructor
    · rintro ⟨constant, p, q, entry, ⟨more, rest, rfl⟩, rfl⟩
      rw [size_push] at rest
      exact ⟨(pool.size, constant) :: more, .entry free entry rest, rfl⟩
    · rintro ⟨_, entries, rfl⟩
      cases entries with
      | done full => omega
      | entry _ entry rest =>
        rw [← size_push] at rest
        exact ⟨_, _, _, entry, ⟨_, rest, rfl⟩, rfl⟩
  | case2 pool full =>
    refine (Reads.pure pool).congr fun built bytes => ?_
    constructor
    · rintro ⟨rfl, rfl⟩
      exact ⟨[], .done (Nat.le_of_not_lt full), rfl⟩
    · rintro ⟨_, entries, rfl⟩
      cases entries with
      | done => exact ⟨rfl, rfl⟩
      | entry free => exact absurd free full

theorem reads_read :
    Reads read fun pool bytes => ∃ more, Constants more bytes ∧ pool = empty.extend more := by
  refine (reads_u2.bind fun count => reads_fill count empty).congr fun pool bytes => ?_
  constructor
  · rintro ⟨count, p, q, number, ⟨more, entries, rfl⟩, rfl⟩
    exact ⟨more, .intro number entries, rfl⟩
  · rintro ⟨more, ⟨number, entries⟩, rfl⟩
    exact ⟨_, _, _, number, ⟨more, entries, rfl⟩, rfl⟩

theorem entries_of_constants {more : Pool} {bytes : List UInt8} (h : Constants more bytes) :
    (empty.extend more).entries = more := by
  obtain ⟨-, entries⟩ := h
  exact entries_extend entries

end ConstantPool

/-! ## Members and attributes -/

theorem reads_table {item : Reader (List Text)} {row : Language (List Text)}
    (h : Reads item row) : Reads (List.flatten <$> table item) (Table row) := by
  refine ((reads_u2.bind fun count => h.times count).map List.flatten).congr fun names bytes => ?_
  constructor
  · rintro ⟨names, ⟨count, p, _, number, ⟨rows, each, rfl, length⟩, rfl⟩, rfl⟩
    exact .intro number each length
  · rintro ⟨number, each, length⟩
    exact ⟨_, ⟨_, _, _, number, ⟨_, each, rfl, length⟩, rfl⟩, rfl⟩

theorem payload_signature_iff {pool : Pool} {names : List Text} {bytes : List UInt8} :
    Payload pool ClassFile.signatureName 2 names bytes ↔ Described pool names bytes := by
  refine ⟨fun payload => ?_, .signature⟩
  cases payload with
  | signature described => exact described
  | other plain _ => exact absurd ⟨rfl, rfl⟩ plain

theorem payload_other_iff {pool : Pool} {name : Text} {size : Nat}
    (plain : ¬(name = ClassFile.signatureName ∧ size = 2)) {names : List Text}
    {bytes : List UInt8} :
    Payload pool name size names bytes ↔ bytes.length = size ∧ names = [] := by
  constructor
  · intro payload
    cases payload with
    | signature _ => exact absurd ⟨rfl, rfl⟩ plain
    | other _ length => exact ⟨length, rfl⟩
  · rintro ⟨length, rfl⟩
    exact .other plain length

namespace ClassFile

variable (pool : ConstantPool)

theorem reads_textAt : Reads (do Reader.ofExcept (pool.text (← u2))) fun value bytes =>
    ∃ slot, U2 slot bytes ∧ pool.entries.TextAt slot value := by
  refine (reads_u2.check pool.text).congr fun value bytes => ?_
  simp only [ConstantPool.text_eq_ok]

theorem reads_namesAt : Reads (do namesAt pool (← u2)) (Described pool.entries) := by
  unfold namesAt
  rw [← bind_assoc]
  refine ((reads_textAt pool).check Descriptor.names).congr fun names bytes => ?_
  constructor
  · rintro ⟨descriptor, ⟨slot, number, found⟩, scanned⟩
    exact .intro number found scanned
  · rintro ⟨number, found, scanned⟩
    exact ⟨_, ⟨_, number, found⟩, scanned⟩

theorem reads_attribute : Reads (readAttribute pool) (Attribute pool.entries) := by
  unfold readAttribute
  rw [← bind_assoc]
  refine ((reads_textAt pool).bind fun name => reads_u4.bind fun size =>
    (?_ : Reads _ (Payload pool.entries name size))).congr fun names bytes => ?_
  · split_ifs with signature
    · obtain ⟨rfl, rfl⟩ := signature
      exact (reads_namesAt pool).congr fun names bytes => payload_signature_iff.symm
    · refine ((Reads.skip size).bind_pure fun _ => []).congr fun names bytes => ?_
      rw [payload_other_iff signature]
      exact ⟨fun ⟨_, length, empty⟩ => ⟨length, empty⟩, fun ⟨length, empty⟩ => ⟨(), length, empty⟩⟩
  · constructor
    · rintro ⟨name, p, _, ⟨slot, number, found⟩, ⟨size, q, r, number', payload, rfl⟩, rfl⟩
      exact .intro number found number' payload
    · rintro ⟨number, found, number', payload⟩
      exact ⟨_, _, _, ⟨_, number, found⟩, ⟨_, _, _, number', payload, rfl⟩, rfl⟩

theorem reads_attributes : Reads (readAttributes pool) (Table (Attribute pool.entries)) :=
  reads_table (reads_attribute pool)

theorem reads_member : Reads (readMember pool) (Member pool.entries) := by
  have parts := (Reads.skip 4).bind fun _ => (reads_namesAt pool).bind fun described =>
    (reads_attributes pool).bind_pure fun attributed => described ++ attributed
  simp only [bind_assoc] at parts
  refine parts.congr fun names bytes => ?_
  constructor
  · rintro ⟨_, start, _, length, ⟨described, p, q, named, ⟨attributed, table, rfl⟩, rfl⟩, rfl⟩
    exact .intro length named table
  · rintro ⟨length, named, table⟩
    exact ⟨(), _, _, length, ⟨_, _, _, named, ⟨_, table, rfl⟩, rfl⟩, rfl⟩

theorem reads_members : Reads (readMembers pool) (Table (Member pool.entries)) :=
  reads_table (reads_member pool)

/-! ## Files -/

theorem reads_classAt : Reads (do Reader.ofExcept (pool.className (← u2))) fun name bytes =>
    ∃ slot, U2 slot bytes ∧ pool.entries.ClassAt slot name := by
  refine (reads_u2.check pool.className).congr fun name bytes => ?_
  simp only [ConstantPool.className_eq_ok]

theorem reads_parents : Reads (do skip 2; skip (2 * (← u2))) Parents := by
  refine ((Reads.skip 2).bind fun _ => reads_u2.bind fun interfaces =>
    Reads.skip (2 * interfaces)).congr fun _ bytes => ?_
  constructor
  · rintro ⟨_, super, _, length, ⟨interfaces, p, slots, number, length', rfl⟩, rfl⟩
    exact .intro length number length'
  · rintro ⟨length, number, length'⟩
    exact ⟨(), _, _, length, ⟨_, _, _, number, length', rfl⟩, rfl⟩

/-- What `read` does when it has the constants. -/
def readBody : Reader ClassFile := do
  skip 2
  let classPath ← Reader.ofExcept (pool.className (← u2))
  let pooled ← Reader.ofExcept pool.classNames
  skip 2
  skip (2 * (← u2))
  let fields ← readMembers pool
  let methods ← readMembers pool
  let signature ← readAttributes pool
  return { classPath, pooled, fields, methods, signature }

theorem reads_body : Reads (readBody pool) (Body pool.entries) := by
  have parts := (Reads.skip 2).bind fun _ => (reads_classAt pool).bind fun classPath =>
    Reads.ofExcept_bind pool.classNames fun pooled => reads_parents.bind fun _ =>
    (reads_members pool).bind fun fields => (reads_members pool).bind fun methods =>
    (reads_attributes pool).bind_pure fun signature =>
      ClassFile.mk classPath pooled fields methods signature
  simp only [bind_assoc, ConstantPool.classNames_eq_ok] at parts
  refine parts.congr fun file bytes => ?_
  constructor
  · rintro ⟨_, flags, _, length, ⟨classPath, p, _, ⟨slot, number, found⟩, ⟨pooled, texts, ⟨_,
      parents, _, hparents, ⟨inFields, fields, _, hfields, ⟨inMethods, methods, attributes,
      hmethods, ⟨inSignature, hattributes, rfl⟩, rfl⟩, rfl⟩, rfl⟩⟩, rfl⟩, rfl⟩
    exact .intro length number found texts hparents hfields hmethods hattributes
  · rintro ⟨length, number, found, texts, hparents, hfields, hmethods, hattributes⟩
    exact ⟨(), _, _, length, ⟨_, _, _, ⟨_, number, found⟩, ⟨_, texts, ⟨(), _, _, hparents,
      ⟨_, _, _, hfields, ⟨_, _, _, hmethods, ⟨_, hattributes, rfl⟩, rfl⟩, rfl⟩, rfl⟩⟩, rfl⟩, rfl⟩

theorem read_eq : read = (do skip 8; readBody (← ConstantPool.read)) := rfl

theorem reads_file : Reads read File := by
  rw [read_eq]
  refine ((Reads.skip 8).bind fun _ => ConstantPool.reads_read.bind fun pool =>
    reads_body pool).congr fun file bytes => ?_
  constructor
  · rintro ⟨_, header, _, length, ⟨_, constants, body, ⟨pool, hpool, rfl⟩, hbody, rfl⟩, rfl⟩
    rw [ConstantPool.entries_of_constants hpool] at hbody
    exact .intro length hpool hbody
  · rintro ⟨length, hpool, hbody⟩
    rw [← ConstantPool.entries_of_constants hpool] at hbody
    exact ⟨(), _, _, length, ⟨_, _, _, ⟨_, hpool, rfl⟩, hbody, rfl⟩, rfl⟩

theorem ofBytes_eq_ok_iff {bytes : List UInt8} {file : ClassFile} :
    ofBytes bytes = .ok file ↔ ∃ p, File file p ∧ p <+: bytes := by
  have answers : ofBytes bytes = .ok file ↔
      ∃ after, read (ByteStream.ofBytes bytes) = .ok file after := by
    unfold ofBytes
    split
    · next found => simp [found]
    · next failed => simp [failed]
  rw [answers]
  constructor
  · rintro ⟨after, found⟩
    obtain ⟨p, derived, rest, -⟩ := (reads_file file _ after).1 found
    exact ⟨p, derived, after.rest, rest.symm⟩
  · rintro ⟨p, derived, rest, rfl⟩
    exact ⟨⟨0 + p.length, rest⟩, (reads_file file _ _).2 ⟨p, derived, rfl, rfl⟩⟩

end ClassFile

namespace ClassSummary

theorem ofBytes_eq_ok_iff {bytes : List UInt8} {summary : ClassSummary} :
    ofBytes bytes = .ok summary ↔
      ∃ file p, File file p ∧ p <+: bytes ∧ file.summary = summary := by
  rw [ofBytes, map_eq_ok]
  constructor
  · rintro ⟨file, read, rfl⟩
    obtain ⟨p, derived, front⟩ := ClassFile.ofBytes_eq_ok_iff.1 read
    exact ⟨file, p, derived, front, rfl⟩
  · rintro ⟨file, p, derived, front, rfl⟩
    exact ⟨file, ClassFile.ofBytes_eq_ok_iff.2 ⟨p, derived, front⟩, rfl⟩

/-- A byte string has a summary if the grammar derives one of its prefixes, and is refused as
malformed in every other case. -/
theorem ofBytes_ok_iff_accepts (bytes : List UInt8) :
    ((∃ summary, ofBytes bytes = .ok summary) ↔ Accepts bytes) ∧
      ((∃ cause : Malformed, ofBytes bytes = .error cause) ↔ ¬Accepts bytes) := by
  have accepted : (∃ summary, ofBytes bytes = .ok summary) ↔ Accepts bytes := by
    constructor
    · rintro ⟨summary, read⟩
      obtain ⟨file, p, derived, front, -⟩ := ofBytes_eq_ok_iff.1 read
      exact ⟨file, p, derived, front⟩
    · rintro ⟨file, p, derived, front⟩
      exact ⟨file.summary, ofBytes_eq_ok_iff.2 ⟨file, p, derived, front, rfl⟩⟩
  refine ⟨accepted, ?_⟩
  rw [← accepted]
  cases ofBytes bytes with
  | ok summary => simp
  | error cause => simp

-- The number in the last slot takes up a slot past the count, and the byte at the end is no part of
-- the file.
example : ofBytes ([0, 0, 0, 0, 0, 0, 0, 0] ++ [0, 4] ++ [7, 0, 2] ++ [1, 0, 1, 65] ++
    [5, 0, 0, 0, 0, 0, 0, 0, 0] ++ [0, 0, 0, 1, 0, 0, 0, 0, 0, 0, 0, 0, 0, 0] ++ [9]) =
      .ok ⟨"A", []⟩ := by
  cbv

end ClassSummary

end ClassOrder
