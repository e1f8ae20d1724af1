import ClassOrder.Proofs.Layout
import ClassOrder.Proofs.Messages
import ClassOrder.Proofs.Truncation

/-!
# Where class files go wrong

A refused byte string has a place at which it goes wrong: its end, a constant of an unknown kind, or
a slot that does not hold what is looked up in it. The message of the refusal gives that place
(`located_of_ofBytes`).

A reader fails where the bytes end, or for some other cause. Where they end is the same for all
parts of a reader, as an exact reader leaves the end of the stream where it is.
-/

namespace ClassOrder

open Grammar

/-- The position at which the stream ends. -/
def ByteStream.finish (stream : ByteStream) : Nat := stream.position + stream.rest.length

namespace Reader

variable {α β : Type}

/-- Bytes are missing at the end of the stream. -/
def LacksBytes (finish : Nat) (cause : Malformed) : Prop :=
  ∃ position expected got, cause = .endOfStream position expected got ∧
    got < expected ∧ position + got = finish

/-- If the reader fails on the stream, bytes are missing, or the cause is one of the others. -/
def FailsAt (reader : Reader α) (before : ByteStream) (Other : Malformed → Prop) : Prop :=
  ∀ cause after, reader before = .error cause after → LacksBytes before.finish cause ∨ Other cause

/-- If the reader fails at all, bytes are missing, or the cause is one of the others. -/
def FailsBy (reader : Reader α) (Other : Malformed → Prop) : Prop :=
  ∀ before, FailsAt reader before Other

theorem Exact.finish_eq {reader : Reader α} (h : Exact reader) {a : α} {before after : ByteStream}
    (read : reader before = .ok a after) : after.finish = before.finish := by
  obtain ⟨bytes, takes, rest⟩ := h a before after read
  rw [ByteStream.finish, ByteStream.finish, takes.position_eq rest read, rest, List.length_append,
    Nat.add_assoc]

namespace FailsAt

variable {reader : Reader α} {before : ByteStream} {Other Other' : Malformed → Prop}

theorem mono (h : FailsAt reader before Other) (weaker : ∀ cause, Other cause → Other' cause) :
    FailsAt reader before Other' :=
  fun cause after failed => (h cause after failed).imp_right (weaker cause)

theorem bind {f : α → Reader β} (h : FailsAt reader before Other) (whole : Exact reader)
    (hf : ∀ a middle, reader before = .ok a middle → FailsAt (f a) middle Other) :
    FailsAt (reader >>= f) before Other := by
  intro cause after failed
  change EStateM.bind reader f before = _ at failed
  unfold EStateM.bind at failed
  cases first : reader before with
  | ok a middle =>
    rw [first] at failed
    rw [← whole.finish_eq first]
    exact hf a middle first cause after failed
  | error e middle =>
    rw [first] at failed
    cases failed
    exact h cause after first

end FailsAt

namespace FailsBy

variable {reader : Reader α} {Other : Malformed → Prop}

theorem pure (a : α) : FailsBy (pure a) Other := fun _ _ _ failed => by cases failed

theorem bind {f : α → Reader β} (h : FailsBy reader Other) (whole : Exact reader)
    (hf : ∀ a, FailsBy (f a) Other) : FailsBy (reader >>= f) Other :=
  fun before => (h before).bind whole fun a middle _ => hf a middle

theorem map (h : FailsBy reader Other) (whole : Exact reader) (f : α → β) :
    FailsBy (f <$> reader) Other := by
  rw [map_eq_pure_bind]
  exact h.bind whole fun a => pure (f a)

theorem take (size : Nat) : FailsBy (Reader.take size) Other := by
  intro before cause after failed
  simp only [Reader.take] at failed
  split_ifs at failed with short
  cases failed
  refine .inl ⟨_, _, _, rfl, short, ?_⟩
  -- Fewer bytes than the size are taken only if all are.
  rw [List.length_take] at short ⊢
  rw [ByteStream.finish, Nat.min_eq_right (by omega)]

theorem skip (size : Nat) : FailsBy (Reader.skip size) Other :=
  (take size).bind (.take size) fun _ => pure ()

theorem u1 : FailsBy Reader.u1 Other := (take 1).map (.take 1) bigEndian

theorem u2 : FailsBy Reader.u2 Other := (take 2).map (.take 2) bigEndian

theorem u4 : FailsBy Reader.u4 Other := (take 4).map (.take 4) bigEndian

theorem ofExcept {result : Except Malformed α}
    (h : ∀ cause, result = .error cause → Other cause) : FailsBy (Reader.ofExcept result) Other := by
  intro before cause after failed
  cases result with
  | ok a => cases failed
  | error e =>
    cases failed
    exact .inr (h cause rfl)

theorem text (h : ∀ fault, Other (.encoding fault)) : FailsBy Reader.text Other := by
  refine u2.bind .u2 fun size => (take size).bind (.take size) fun bytes => ofExcept ?_
  intro cause failed
  cases decoded : ModifiedUtf8.decode bytes with
  | ok value =>
    rw [decoded] at failed
    cases failed
  | error fault =>
    rw [decoded] at failed
    cases failed
    exact h fault

theorem times (h : FailsBy reader Other) (whole : Exact reader) (count : Nat) :
    FailsBy (Reader.times count reader) Other := by
  induction count with
  | zero => exact pure []
  | succ count ih =>
    rw [times_succ]
    exact h.bind whole fun a => ih.bind (whole.times count) fun as => pure (a :: as)

theorem table (h : FailsBy reader Other) (whole : Exact reader) :
    FailsBy (Reader.table reader) Other :=
  u2.bind .u2 fun count => h.times whole count

end FailsBy

end Reader

open Reader

/-! ## Constants -/

/-- The tags of all kinds of constants. -/
def knownTags : List Nat := [1, 3, 4, 5, 6, 7, 8, 9, 10, 11, 12, 15, 16, 18]

theorem not_mem_knownTags {tag : Nat} (text : tag ≠ 1) (classRef : tag ≠ 7)
    (unknown : Constant.payloadSize? tag = none) : tag ∉ knownTags := by
  have kinds : ∀ tag ∈ knownTags, tag = 1 ∨ tag = 7 ∨ Constant.payloadSize? tag ≠ none := by decide
  intro known
  rcases kinds tag known with rfl | rfl | other
  · exact text rfl
  · exact classRef rfl
  · exact other unknown

/-- Constants that take up the slots from one slot up to another. -/
inductive Occupies : Nat → Nat → Language Pool
  | none {slot : Nat} : Occupies slot slot [] []
  | entry {slot stop : Nat} {constant : Constant} {pool : Pool} {p q : List UInt8} :
    Entry constant p → Occupies (slot + if constant.isWide then 2 else 1) stop pool q →
      Occupies slot stop ((slot, constant) :: pool) (p ++ q)

/-- What is wrong with the constant at the front of a stream, whose slot is the index. -/
inductive BadConstant (index : Nat) (stream : ByteStream) : Malformed → Prop
  | encoding (fault : ModifiedUtf8.Fault) : BadConstant index stream (.encoding fault)
  | tag {tag : UInt8} {rest : List UInt8} : stream.rest = tag :: rest → tag.toNat ∉ knownTags →
      BadConstant index stream (.unknownTag tag.toNat index stream.position)

/-- What is wrong with one of the constants from a slot on, which is behind some good ones. -/
inductive BadConstants (count slot : Nat) (stream : ByteStream) : Malformed → Prop
  | intro {index : Nat} {cause : Malformed} {good : Pool} {p rest : List UInt8} :
    stream.rest = p ++ rest → Occupies slot index good p → index < count →
      BadConstant index ⟨stream.position + p.length, rest⟩ cause →
      BadConstants count slot stream cause

theorem Constant.failsAt_read (index : Nat) (before : ByteStream) :
    FailsAt (Constant.read index) before (BadConstant index before) := by
  refine (FailsBy.u1 before).bind .u1 fun tag middle read => ?_
  obtain ⟨_, ⟨b, rfl, rfl⟩, rest, position⟩ := (reads_u1 tag before middle).1 read
  split_ifs with text classRef
  · exact (FailsBy.text .encoding).bind .text (fun value => .pure (Constant.text value)) middle
  · exact FailsBy.u2.bind .u2 (fun nameIndex => .pure (Constant.classRef nameIndex)) middle
  · split
    · next size _ =>
      exact (FailsBy.skip size).bind (.skip size) (fun _ => .pure (Constant.other _)) middle
    · next unknown =>
      intro cause after failed
      injection failed with cause_eq
      rw [position] at cause_eq
      rw [← cause_eq]
      exact .inr (.tag rest (not_mem_knownTags text classRef unknown))

namespace BadConstants

variable {count slot : Nat} {before middle : ByteStream} {cause : Malformed}

theorem first (free : slot < count) (bad : BadConstant slot before cause) :
    BadConstants count slot before cause :=
  .intro (List.nil_append _).symm .none free bad

/-- A constant that goes wrong behind a good one. -/
theorem later {constant : Constant} {p : List UInt8} (entry : Entry constant p)
    (rest : before.rest = p ++ middle.rest) (position : middle.position = before.position + p.length)
    (bad : BadConstants count (slot + if constant.isWide then 2 else 1) middle cause) :
    BadConstants count slot before cause := by
  cases bad with
  | intro rest' good free bad =>
    rw [rest', ← List.append_assoc] at rest
    rw [position, Nat.add_assoc, ← List.length_append] at bad
    exact .intro rest (.entry entry good) free bad

end BadConstants

theorem ConstantPool.failsAt_fill (count : Nat) (pool : ConstantPool) (before : ByteStream) :
    FailsAt (fill count pool) before (BadConstants count pool.size before) := by
  fun_induction fill count pool generalizing before with
  | case1 pool free ih =>
    refine FailsAt.bind ?_ (Constant.exact_read pool.size) fun constant middle read => ?_
    · exact (Constant.failsAt_read pool.size before).mono fun cause => .first free
    · obtain ⟨p, entry, rest, position⟩ := (reads_constant pool.size constant before middle).1 read
      refine (ih constant middle).mono fun cause bad => ?_
      rw [size_push] at bad
      exact bad.later entry rest position
  | case2 pool full => exact FailsBy.pure pool before

/-! ## Slots -/

/-- Some class starts at the slot. -/
def Grammar.Pool.HasClass (pool : Pool) (slot : Nat) : Prop :=
  ∃ nameSlot, (slot, .classRef nameSlot) ∈ pool

/-- A constant of the kind starts at the slot. -/
def Grammar.Pool.Has (pool : Pool) : EntryKind → Nat → Prop
  | .text => pool.HasText
  | .classRef => pool.HasClass

theorem Grammar.Pool.Has.exists_mem {pool : Pool} {kind : EntryKind} {slot : Nat}
    (has : pool.Has kind slot) : ∃ constant, (slot, constant) ∈ pool := by
  cases kind with
  | text => exact has.imp' Constant.text fun _ found => found
  | classRef => exact has.imp' Constant.classRef fun _ found => found

/-- What is wrong with a slot that is looked up in a pool, or with the text that is found there. -/
inductive BadSlot (pool : Pool) : Malformed → Prop
  | entry {kind : EntryKind} {slot : Nat} : ¬pool.Has kind slot →
    BadSlot pool (.wrongEntry kind slot)
  | descriptor (descriptor : Text) : BadSlot pool (.unterminatedName descriptor)

namespace ConstantPool

variable {pool : ConstantPool} {slot : Nat} {cause : Malformed}

theorem badSlot_of_text (failed : pool.text slot = .error cause) : BadSlot pool.entries cause := by
  have missing : ¬pool.entries.HasText slot := by
    rintro ⟨value, found⟩
    rw [text_eq_ok.2 found] at failed
    cases failed
  unfold text at failed
  split at failed
  · cases failed
  · cases failed
    exact .entry missing

theorem badSlot_of_className (failed : pool.className slot = .error cause) :
    BadSlot pool.entries cause := by
  unfold className at failed
  split at failed
  · exact badSlot_of_text failed
  · next other =>
    cases failed
    exact .entry fun ⟨nameSlot, found⟩ => other nameSlot (mem_entries.1 found)

theorem badSlot_of_classNames (failed : pool.classNames = .error cause) :
    BadSlot pool.entries cause := by
  obtain ⟨-, slot, -, -, -, failed⟩ := mapM_eq_error_iff.1 failed
  exact badSlot_of_text failed

end ConstantPool

theorem Descriptor.badSlot_of_names {pool : Pool} {descriptor : Text} {cause : Malformed}
    (failed : names descriptor = .error cause) : BadSlot pool cause := by
  simp only [names] at failed
  split_ifs at failed
  cases failed
  exact .descriptor descriptor

namespace ClassFile

variable (pool : ConstantPool)

theorem failsBy_textAt (index : Nat) :
    FailsBy (Reader.ofExcept (pool.text index)) (BadSlot pool.entries) :=
  .ofExcept fun _ => ConstantPool.badSlot_of_text

theorem failsBy_namesAt (index : Nat) : FailsBy (namesAt pool index) (BadSlot pool.entries) :=
  (failsBy_textAt pool index).bind (.ofExcept _) fun _ =>
    .ofExcept fun _ => Descriptor.badSlot_of_names

theorem failsBy_readAttribute : FailsBy (readAttribute pool) (BadSlot pool.entries) := by
  refine FailsBy.u2.bind .u2 fun nameIndex =>
    (failsBy_textAt pool nameIndex).bind (.ofExcept _) fun name => FailsBy.u4.bind .u4 fun size => ?_
  split_ifs
  · exact FailsBy.u2.bind .u2 fun index => failsBy_namesAt pool index
  · exact (FailsBy.skip size).bind (.skip size) fun _ => .pure []

theorem failsBy_readAttributes : FailsBy (readAttributes pool) (BadSlot pool.entries) :=
  ((failsBy_readAttribute pool).table (exact_readAttribute pool)).map
    (exact_readAttribute pool).table List.flatten

theorem failsBy_readMember : FailsBy (readMember pool) (BadSlot pool.entries) :=
  (FailsBy.skip 4).bind (.skip 4) fun _ => FailsBy.u2.bind .u2 fun index =>
    (failsBy_namesAt pool index).bind (exact_namesAt pool index) fun _ =>
    (failsBy_readAttributes pool).bind (exact_readAttributes pool) fun _ => .pure _

theorem failsBy_readMembers : FailsBy (readMembers pool) (BadSlot pool.entries) :=
  ((failsBy_readMember pool).table (exact_readMember pool)).map
    (exact_readMember pool).table List.flatten

theorem failsBy_readBody : FailsBy (readBody pool) (BadSlot pool.entries) :=
  (FailsBy.skip 2).bind (.skip 2) fun _ => FailsBy.u2.bind .u2 fun _ =>
    FailsBy.bind (.ofExcept fun _ => ConstantPool.badSlot_of_className) (.ofExcept _) fun _ =>
    FailsBy.bind (.ofExcept fun _ => ConstantPool.badSlot_of_classNames) (.ofExcept _) fun _ =>
    (FailsBy.skip 2).bind (.skip 2) fun _ => FailsBy.u2.bind .u2 fun interfaces =>
    (FailsBy.skip (2 * interfaces)).bind (.skip _) fun _ =>
    (failsBy_readMembers pool).bind (exact_readMembers pool) fun _ =>
    (failsBy_readMembers pool).bind (exact_readMembers pool) fun _ =>
    (failsBy_readAttributes pool).bind (exact_readAttributes pool) fun _ => .pure _

end ClassFile

/-! ## Pools -/

/-- The count and the constants of a file. The header takes eight bytes, and the count two. -/
structure HoldsPool (bytes : List UInt8) (count : Nat) (pool : Pool) : Prop where
  number : U2 count ((bytes.take 10).drop 8)
  slots : ∃ p rest, bytes.drop 10 = p ++ rest ∧ Slots count 1 pool p

/-- Slots at which no constant can start: slot 0, those past the count, and the second one of a
constant that takes two. -/
inductive Unusable (count : Nat) (pool : Pool) : Nat → Prop
  | zero : Unusable count pool 0
  | past {slot : Nat} : count ≤ slot → Unusable count pool slot
  | second {slot : Nat} {constant : Constant} :
    (slot, constant) ∈ pool → constant.isWide = true → Unusable count pool (slot + 1)

theorem slots_bounds {count start slot : Nat} {pool : Pool} {p : List UInt8} {constant : Constant}
    (h : Slots count start pool p) (mem : (slot, constant) ∈ pool) :
    start ≤ slot ∧ slot < count := by
  induction h with
  | done => cases mem
  | entry free _ _ ih =>
    rcases List.mem_cons.1 mem with same | mem
    · cases same
      exact ⟨le_rfl, free⟩
    · have bounds := ih mem
      exact ⟨by omega, bounds.2⟩

theorem not_mem_of_wide {count start slot : Nat} {pool : Pool} {p : List UInt8}
    {wide other : Constant} (h : Slots count start pool p) (mem : (slot, wide) ∈ pool)
    (isWide : wide.isWide = true) : (slot + 1, other) ∉ pool := by
  induction h with
  | done => cases mem
  | entry free _ rest ih =>
    intro mem'
    rcases List.mem_cons.1 mem with same | later <;> rcases List.mem_cons.1 mem' with same' | later'
    · cases same
      cases same'
    · cases same
      have bounds := slots_bounds rest later'
      rw [if_pos isWide] at bounds
      omega
    · cases same'
      have bounds := slots_bounds rest later
      omega
    · exact ih later later'

namespace HoldsPool

variable {bytes : List UInt8} {count count' slot : Nat} {pool pool' : Pool}

theorem not_mem_of_unusable (h : HoldsPool bytes count pool) (unusable : Unusable count pool slot)
    (constant : Constant) : (slot, constant) ∉ pool := by
  obtain ⟨-, p, rest, -, slots⟩ := h
  intro mem
  have bounds := slots_bounds slots mem
  cases unusable with
  | zero => omega
  | past past => omega
  | second wide isWide => exact not_mem_of_wide slots wide isWide mem

theorem exists_fill (h : HoldsPool bytes count pool) : ∃ built after,
    ConstantPool.fill count .empty ⟨10, bytes.drop 10⟩ = .ok built after ∧
      built.entries = pool := by
  obtain ⟨number, p, rest, split, slots⟩ := h
  refine ⟨ConstantPool.empty.extend pool, ⟨10 + p.length, rest⟩, ?_, ?_⟩
  · exact (ConstantPool.reads_fill count .empty _ _ _).2 ⟨p, ⟨pool, slots, rfl⟩, split, rfl⟩
  · exact ConstantPool.entries_of_constants (.intro number slots)

/-- A file holds one pool only. -/
theorem unique (h : HoldsPool bytes count pool) (h' : HoldsPool bytes count' pool') :
    count = count' ∧ pool = pool' := by
  have same : count = count' := by
    have number := h.number
    have number' := h'.number
    generalize (bytes.take 10).drop 8 = digits at number number'
    cases number
    cases number'
    rfl
  subst same
  obtain ⟨built, after, filled, rfl⟩ := h.exists_fill
  obtain ⟨built', after', filled', rfl⟩ := h'.exists_fill
  injection filled.symm.trans filled' with equal
  exact ⟨rfl, congrArg ConstantPool.entries equal⟩

end HoldsPool

/-! ## Files -/

/-- Where a file goes wrong that does not lack bytes. -/
inductive BadFile (bytes : List UInt8) : Malformed → Prop
  | constants {count : Nat} {cause : Malformed} : U2 count ((bytes.take 10).drop 8) →
    BadConstants count 1 ⟨10, bytes.drop 10⟩ cause → BadFile bytes cause
  | slots {count : Nat} {pool : Pool} {cause : Malformed} : HoldsPool bytes count pool →
    BadSlot pool cause → BadFile bytes cause

/-- What `read` does, with the header and the count taken together. -/
theorem ClassFile.read_eq_count : read = (do
    let count ← (do skip 8; u2)
    readBody (← ConstantPool.fill count .empty)) := by
  simp only [read_eq, ConstantPool.read, bind_assoc]

theorem ClassFile.count_of_read {bytes : List UInt8} {count : Nat} {after : ByteStream}
    (read : (do skip 8; u2) (.ofBytes bytes) = .ok count after) :
    U2 count ((bytes.take 10).drop 8) ∧ after = ⟨10, bytes.drop 10⟩ := by
  obtain ⟨position, rest⟩ := after
  have parts := (Reads.skip 8).bind fun _ => reads_u2
  obtain ⟨_, ⟨_, header, p, length, ⟨a, b⟩, rfl⟩, split, sum⟩ := (parts count _ _).1 read
  simp only [ByteStream.ofBytes, List.append_assoc, List.length_append, length, List.length_cons,
    List.length_nil] at split sum
  subst split sum
  have digits : ((header ++ ([a, b] ++ rest)).take 10).drop 8 = [a, b] := by
    simp [List.take_append, length]
  have behind : (header ++ ([a, b] ++ rest)).drop 10 = rest := by
    simp [List.drop_append, length]
  rw [digits, behind]
  exact ⟨.intro a b, rfl⟩

theorem ClassFile.failsAt_read (bytes : List UInt8) :
    FailsAt read (.ofBytes bytes) (BadFile bytes) := by
  rw [read_eq_count]
  refine FailsAt.bind ((FailsBy.skip 8).bind (.skip 8) (fun _ => .u2) _)
    ((Exact.skip 8).bind fun _ => .u2) fun count start counted => ?_
  obtain ⟨number, rfl⟩ := count_of_read counted
  refine FailsAt.bind ?_ (ConstantPool.exact_fill count .empty) fun built middle filled => ?_
  · exact (ConstantPool.failsAt_fill count .empty _).mono fun cause => .constants number
  · obtain ⟨p, ⟨pool, slots, rfl⟩, split, -⟩ := (ConstantPool.reads_fill count .empty _ _ _).1 filled
    have fails := failsBy_readBody (ConstantPool.empty.extend pool) middle
    rw [ConstantPool.entries_of_constants (.intro number slots)] at fails
    exact fails.mono fun cause => .slots ⟨number, p, middle.rest, split, slots⟩

/-- The byte at the position should be the tag of the constant at the index, behind constants that
take up the slots before it, but is the tag of no kind. -/
structure UnknownTagAt (bytes : List UInt8) (tag index position : Nat) : Prop where
  byte : ∃ b, bytes[position]? = some b ∧ b.toNat = tag
  unknown : tag ∉ knownTags
  counted : ∃ count, U2 count ((bytes.take 10).drop 8) ∧ index < count
  inPool : 10 ≤ position
  behind : ∃ good, Occupies 1 index good ((bytes.take position).drop 10)

namespace BadFile

variable {bytes : List UInt8} {position expected got tag index : Nat}

theorem not_endOfStream : ¬BadFile bytes (.endOfStream position expected got) := by
  rintro (⟨-, _, _, _, bad⟩ | ⟨-, bad⟩) <;> cases bad

theorem of_unknownTag (bad : BadFile bytes (.unknownTag tag index position)) :
    UnknownTagAt bytes tag index position := by
  cases bad with
  | slots _ bad => cases bad
  | constants number bad =>
    cases bad with
    | @intro _ _ good p _ split occupied free bad =>
      cases bad with
      | @tag b rest front unknown =>
        subst front
        change bytes.drop 10 = p ++ b :: rest at split
        have here : bytes[10 + p.length]? = some b := by
          rw [← List.getElem?_drop, split, List.getElem?_append_right le_rfl, Nat.sub_self]
          rfl
        have before : (bytes.take (10 + p.length)).drop 10 = p := by
          rw [List.drop_take, split, Nat.add_sub_cancel_left, List.take_left]
        refine ⟨⟨b, here, rfl⟩, unknown, ⟨_, number, free⟩, Nat.le_add_right _ _, good, ?_⟩
        rwa [before]

theorem of_wrongEntry {kind : EntryKind} (bad : BadFile bytes (.wrongEntry kind index)) :
    ∃ count pool, HoldsPool bytes count pool ∧ ¬pool.Has kind index := by
  rcases bad with ⟨-, _, _, _, bad⟩ | ⟨holds, bad⟩
  · cases bad
  · cases bad with
    | entry missing => exact ⟨_, _, holds, missing⟩

end BadFile

/-- The file holds a pool, in which nothing of a kind is at the slot, nor at any slot at which no
constant can start. -/
def LooksInVain (Has : Pool → Nat → Prop) (bytes : List UInt8) (index : Nat) : Prop :=
  (∃ count pool, HoldsPool bytes count pool) ∧ ∀ count pool, HoldsPool bytes count pool →
    ¬Has pool index ∧ ∀ slot, Unusable count pool slot → ¬Has pool slot

theorem HoldsPool.looksInVain {bytes : List UInt8} {count index : Nat} {pool : Pool}
    {kind : EntryKind} (holds : HoldsPool bytes count pool) (missing : ¬pool.Has kind index) :
    LooksInVain (Pool.Has · kind) bytes index := by
  refine ⟨⟨count, pool, holds⟩, fun count' pool' holds' => ?_⟩
  obtain ⟨rfl, rfl⟩ := holds.unique holds'
  refine ⟨missing, fun slot unusable has => ?_⟩
  obtain ⟨constant, mem⟩ := has.exists_mem
  exact holds.not_mem_of_unusable unusable constant mem

open Text (ofNat) in
/-- The message for a cause gives the place where the bytes go wrong. -/
structure Located (bytes : List UInt8) (cause : Malformed) : Prop where
  endOfStream : ∀ position expected got, cause.message =
    "Unexpected end of stream at byte " ++ ofNat position ++ ": expected " ++ ofNat expected ++
      " bytes, got " ++ ofNat got ++ "." →
    got < expected ∧ position + got = bytes.length
  unknownTag : ∀ tag index position, cause.message =
    "Unknown constant pool tag " ++ ofNat tag ++ " at index " ++ ofNat index ++ " (byte " ++
      ofNat position ++ ")." →
    UnknownTagAt bytes tag index position
  notText : ∀ index, cause.message =
    "Constant pool index " ++ ofNat index ++ " is not a UTF8 entry." →
    LooksInVain Pool.HasText bytes index
  notClass : ∀ index, cause.message =
    "Constant pool index " ++ ofNat index ++ " is not a class entry." →
    LooksInVain Pool.HasClass bytes index

theorem ClassFile.lacksBytes_or_badFile {bytes : List UInt8} {cause : Malformed}
    (refused : ofBytes bytes = .error cause) :
    LacksBytes bytes.length cause ∨ BadFile bytes cause := by
  unfold ofBytes at refused
  split at refused
  · cases refused
  · next after failed =>
    cases refused
    have place := failsAt_read bytes cause after failed
    rwa [ByteStream.finish, ByteStream.ofBytes, Nat.zero_add] at place

namespace ClassSummary

theorem looksInVain_of_message (kind : EntryKind) {bytes : List UInt8} {cause : Malformed}
    {index : Nat} (failed : LacksBytes bytes.length cause ∨ BadFile bytes cause)
    (told : cause.message = (Malformed.wrongEntry kind index).message) :
    LooksInVain (Pool.Has · kind) bytes index := by
  obtain rfl := Malformed.eq_wrongEntry told
  rcases failed with ⟨_, _, _, same, -⟩ | bad
  · cases same
  · obtain ⟨count, pool, holds, missing⟩ := bad.of_wrongEntry
    exact holds.looksInVain missing

/-- The message of every refusal gives the right place. -/
theorem located_of_ofBytes {bytes : List UInt8} {cause : Malformed}
    (refused : ofBytes bytes = .error cause) : Located bytes cause := by
  have failed := ClassFile.lacksBytes_or_badFile (map_eq_error.1 refused)
  constructor
  case endOfStream =>
    intro position expected got told
    obtain rfl := Malformed.eq_endOfStream told
    rcases failed with ⟨_, _, _, same, less, sum⟩ | bad
    · cases same
      exact ⟨less, sum⟩
    · exact absurd bad BadFile.not_endOfStream
  case unknownTag =>
    intro tag index position told
    obtain rfl := Malformed.eq_unknownTag told
    rcases failed with ⟨_, _, _, same, -⟩ | bad
    · cases same
    · exact bad.of_unknownTag
  case notText =>
    intro index told
    exact looksInVain_of_message .text failed told
  case notClass =>
    intro index told
    exact looksInVain_of_message .classRef failed told

/-- A file with a constant of an unknown kind behind an eight-byte number. -/
def strayTag : List UInt8 :=
  [0, 0, 0, 0, 0, 0, 0, 0] ++ [0, 4] ++ [5, 0, 0, 0, 0, 0, 0, 0, 0] ++ [99]

theorem located_of_ofBytes_strayTag :
    ofBytes strayTag = .error (.unknownTag 99 3 19) ∧ Located strayTag (.unknownTag 99 3 19) := by
  have refused : ofBytes strayTag = .error (.unknownTag 99 3 19) := by decide +kernel
  exact ⟨refused, located_of_ofBytes refused⟩

end ClassSummary

end ClassOrder
