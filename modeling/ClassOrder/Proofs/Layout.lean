import ClassOrder.Proofs.Acceptance

/-!
# The layout of class files

A `Layout` is a class file as a tree that holds everything its bytes hold. Its skeleton leaves out
what the reader passes over: the header, all flags, the superclass and the interfaces, the names of
members, and the payload of every attribute that is no signature.

The accepted byte strings are those that start with the bytes of a layout in which every slot that
counts is filled, and the summary is a function of the skeleton (`ofBytes_eq_ok_iff_layout`).
-/

namespace ClassOrder

/-! ## Look-ups in a pool -/

namespace Grammar.Pool

variable (pool : Pool)

instance (slot : Nat) (value : Text) : Decidable (pool.TextAt slot value) :=
  inferInstanceAs (Decidable (_ ∈ pool))

/-- The text at a slot, and no code point at all where there is none. -/
def text (slot : Nat) : Text :=
  match pool.lookup slot with
  | some (.text value) => value
  | _ => []

/-- Some text starts at the slot. -/
def HasText (slot : Nat) : Prop := ∃ value, pool.TextAt slot value

/-- The names of all classes, in slot order. -/
def classNames : List Text := pool.nameSlots.map pool.text

/-- The names in the descriptor or signature at a slot. -/
def namesAt (slot : Nat) : List Text := (Descriptor.scan (pool.text slot)).names

/-- The slot holds a descriptor or signature in which every name is ended. -/
def HasNames (slot : Nat) : Prop :=
  pool.HasText slot ∧ (Descriptor.scan (pool.text slot)).complete = true

/-- No two constants start at one slot. -/
def Unambiguous : Prop :=
  ∀ slot a b, (slot, a) ∈ pool → (slot, b) ∈ pool → a = b

variable {pool}

theorem unambiguous_of_constants {bytes : List UInt8} (h : Constants pool bytes) :
    pool.Unambiguous := by
  intro slot a b ha hb
  rw [← ConstantPool.entries_of_constants h, ConstantPool.mem_entries] at ha hb
  exact Option.some.inj (ha.symm.trans hb)

theorem Unambiguous.lookup_eq_some (h : pool.Unambiguous) {slot : Nat} {constant : Constant}
    (found : (slot, constant) ∈ pool) : pool.lookup slot = some constant := by
  cases looked : pool.lookup slot with
  | none =>
    have missing := List.lookup_eq_none_iff.1 looked _ found
    simp at missing
  | some other =>
    obtain ⟨before, after, rfl, -⟩ := List.lookup_eq_some_iff.1 looked
    rw [h slot other constant (by simp) found]

theorem Unambiguous.textAt_iff (h : pool.Unambiguous) {slot : Nat} {value : Text} :
    pool.TextAt slot value ↔ pool.HasText slot ∧ pool.text slot = value := by
  have text_eq {value : Text} (found : pool.TextAt slot value) : pool.text slot = value := by
    rw [text, h.lookup_eq_some found]
  constructor
  · intro found
    exact ⟨⟨value, found⟩, text_eq found⟩
  · rintro ⟨⟨value', found⟩, rfl⟩
    rwa [text_eq found]

theorem Unambiguous.forall₂_textAt_iff (h : pool.Unambiguous) {slots : List Nat}
    {values : List Text} : List.Forall₂ pool.TextAt slots values ↔
      (∀ slot ∈ slots, pool.HasText slot) ∧ slots.map pool.text = values := by
  have split : pool.TextAt = fun slot value => pool.HasText slot ∧ pool.text slot = value := by
    funext slot value
    exact propext h.textAt_iff
  rw [split, List.forall₂_and_left, ← List.forall₂_map_left_iff, List.forall₂_eq_eq_eq]

end Grammar.Pool

theorem Descriptor.names_eq_ok {t : Text} {names : List Text} :
    Descriptor.names t = .ok names ↔ (scan t).complete = true ∧ (scan t).names = names := by
  simp only [Descriptor.names]
  split
  · next complete => simp [complete]
  · next incomplete => simp [incomplete]

open Grammar (Pool)

namespace Layout

/-! ## Numbers -/

def twoBytes (n : Nat) : List UInt8 := [.ofNat (n / 2 ^ 8), .ofNat n]

def fourBytes (n : Nat) : List UInt8 :=
  [.ofNat (n / 2 ^ 24), .ofNat (n / 2 ^ 16), .ofNat (n / 2 ^ 8), .ofNat n]

theorem u2_iff {n : Nat} {p : List UInt8} : Grammar.U2 n p ↔ n < 2 ^ 16 ∧ twoBytes n = p := by
  constructor
  · rintro ⟨a, b⟩
    have := a.toNat_lt
    have := b.toNat_lt
    refine ⟨by omega, ?_⟩
    simp only [twoBytes, List.cons.injEq, ← UInt8.toNat_inj, UInt8.toNat_ofNat', and_true]
    omega
  · rintro ⟨bound, rfl⟩
    have value : 2 ^ 8 * (UInt8.ofNat (n / 2 ^ 8)).toNat + (UInt8.ofNat n).toNat = n := by
      simp only [UInt8.toNat_ofNat']
      omega
    have := Grammar.U2.intro (.ofNat (n / 2 ^ 8)) (.ofNat n)
    rwa [value] at this

theorem u4_iff {n : Nat} {p : List UInt8} : Grammar.U4 n p ↔ n < 2 ^ 32 ∧ fourBytes n = p := by
  constructor
  · rintro ⟨a, b, c, d⟩
    have := a.toNat_lt
    have := b.toNat_lt
    have := c.toNat_lt
    have := d.toNat_lt
    refine ⟨by omega, ?_⟩
    simp only [fourBytes, List.cons.injEq, ← UInt8.toNat_inj, UInt8.toNat_ofNat', and_true]
    omega
  · rintro ⟨bound, rfl⟩
    have value : 2 ^ 24 * (UInt8.ofNat (n / 2 ^ 24)).toNat +
        2 ^ 16 * (UInt8.ofNat (n / 2 ^ 16)).toNat + 2 ^ 8 * (UInt8.ofNat (n / 2 ^ 8)).toNat +
        (UInt8.ofNat n).toNat = n := by
      simp only [UInt8.toNat_ofNat']
      omega
    have := Grammar.U4.intro (.ofNat (n / 2 ^ 24)) (.ofNat (n / 2 ^ 16)) (.ofNat (n / 2 ^ 8))
      (.ofNat n)
    rwa [value] at this

def slotBytes (slot : UInt16) : List UInt8 := twoBytes slot.toNat

theorem u2_iff_slot {n : Nat} {p : List UInt8} :
    Grammar.U2 n p ↔ ∃ slot : UInt16, slot.toNat = n ∧ slotBytes slot = p := by
  rw [u2_iff]
  constructor
  · rintro ⟨bound, rfl⟩
    exact ⟨.ofNatLT n bound, rfl, rfl⟩
  · rintro ⟨slot, rfl, rfl⟩
    exact ⟨slot.toNat_lt, rfl⟩

theorem length_eq_two_iff {p : List UInt8} : p.length = 2 ↔ ∃ slot, slotBytes slot = p := by
  constructor
  · intro length
    obtain ⟨a, b, rfl⟩ := List.length_eq_two.1 length
    obtain ⟨slot, -, spelled⟩ := u2_iff_slot.1 (.intro a b)
    exact ⟨slot, spelled⟩
  · rintro ⟨slot, rfl⟩
    rfl

theorem length_eq_four_iff {p : List UInt8} :
    p.length = 4 ↔ ∃ first second, slotBytes first ++ slotBytes second = p := by
  constructor
  · intro length
    obtain ⟨first, front⟩ := length_eq_two_iff.1 (show (p.take 2).length = 2 by simp [length])
    obtain ⟨second, back⟩ := length_eq_two_iff.1 (show (p.drop 2).length = 2 by simp [length])
    exact ⟨first, second, by rw [front, back, List.take_append_drop]⟩
  · rintro ⟨first, second, rfl⟩
    rfl

/-! ## Trees -/

/-- Rows that can be counted in two bytes. -/
abbrev Table (α : Type) := { rows : List α // rows.length < 2 ^ 16 }

structure Attribute where
  nameSlot : UInt16
  payload : List UInt8
  fits : payload.length < 2 ^ 32

/-- A field or a method. -/
structure Member where
  flags : UInt16
  nameSlot : UInt16
  descriptorSlot : UInt16
  attributes : Table Attribute

end Layout

open Layout in
/-- A class file with all its parts. The constants are kept as they are written. -/
structure Layout where
  header : Vector UInt8 8
  constants : List UInt8
  pool : Pool
  derived : Grammar.Constants pool constants
  flags : UInt16
  thisSlot : UInt16
  superSlot : UInt16
  interfaces : Table UInt16
  fields : Table Member
  methods : Table Member
  attributes : Table Attribute

namespace Layout

def Table.bytes {α : Type} (row : α → List UInt8) (table : Table α) : List UInt8 :=
  twoBytes table.1.length ++ (table.1.map row).flatten

def Attribute.bytes (attr : Attribute) : List UInt8 :=
  slotBytes attr.nameSlot ++ (fourBytes attr.payload.length ++ attr.payload)

def Member.bytes (member : Member) : List UInt8 :=
  (slotBytes member.flags ++ slotBytes member.nameSlot) ++
    (slotBytes member.descriptorSlot ++ Table.bytes Attribute.bytes member.attributes)

/-- The encoded class file. -/
def bytes (layout : Layout) : List UInt8 :=
  layout.header.toList ++ (layout.constants ++ (slotBytes layout.flags ++
    (slotBytes layout.thisSlot ++ ((slotBytes layout.superSlot ++
    Table.bytes slotBytes layout.interfaces) ++ (Table.bytes Member.bytes layout.fields ++
    (Table.bytes Member.bytes layout.methods ++ Table.bytes Attribute.bytes layout.attributes))))))

/-! ## Skeletons -/

/-- An attribute, as far as names depend on it. -/
inductive AttributeSkeleton where
  /-- A signature of two bytes, by the slot of its text. -/
  | signature (slot : Nat)
  /-- Any other attribute, by the slot of its name. -/
  | other (nameSlot : UInt16)

/-- A field or a method, as far as names depend on it. -/
structure MemberSkeleton where
  descriptorSlot : UInt16
  attributes : List AttributeSkeleton

/-- A class file, as far as names depend on it. -/
structure Skeleton where
  pool : Pool
  thisSlot : UInt16
  fields : List MemberSkeleton
  methods : List MemberSkeleton
  attributes : List AttributeSkeleton

def Attribute.skeleton (pool : Pool) (attr : Attribute) : AttributeSkeleton :=
  match attr.payload with
  | [a, b] =>
    if pool.TextAt attr.nameSlot.toNat ClassFile.signatureName then
      .signature (2 ^ 8 * a.toNat + b.toNat)
    else .other attr.nameSlot
  | _ => .other attr.nameSlot

def Member.skeleton (pool : Pool) (member : Member) : MemberSkeleton where
  descriptorSlot := member.descriptorSlot
  attributes := member.attributes.1.map (Attribute.skeleton pool)

def skeleton (layout : Layout) : Skeleton where
  pool := layout.pool
  thisSlot := layout.thisSlot
  fields := layout.fields.1.map (Member.skeleton layout.pool)
  methods := layout.methods.1.map (Member.skeleton layout.pool)
  attributes := layout.attributes.1.map (Attribute.skeleton layout.pool)

/-- The names in a signature. There are none in any other attribute. -/
def AttributeSkeleton.names (pool : Pool) : AttributeSkeleton → List Text
  | signature slot => pool.namesAt slot
  | other _ => []

/-- The names in the descriptor, then those in the signatures. -/
def MemberSkeleton.names (pool : Pool) (member : MemberSkeleton) : List Text :=
  pool.namesAt member.descriptorSlot.toNat ++
    member.attributes.flatMap (AttributeSkeleton.names pool)

/-- All names a class file mentions: those of its pool in slot order, then those of its fields, its
methods and its own signatures. -/
def Skeleton.mentions (file : Skeleton) : List Text :=
  file.pool.classNames ++ file.fields.flatMap (MemberSkeleton.names file.pool) ++
    file.methods.flatMap (MemberSkeleton.names file.pool) ++
    file.attributes.flatMap (AttributeSkeleton.names file.pool)

/-- The slots that an attribute refers to are filled. -/
def AttributeSkeleton.Filled (pool : Pool) : AttributeSkeleton → Prop
  | signature slot => pool.HasNames slot
  | other nameSlot => pool.HasText nameSlot.toNat

def MemberSkeleton.Filled (pool : Pool) (member : MemberSkeleton) : Prop :=
  pool.HasNames member.descriptorSlot.toNat ∧
    ∀ attr ∈ member.attributes, attr.Filled pool

/-- The slots that a class file refers to are filled, where they count. -/
structure Skeleton.Filled (file : Skeleton) : Prop where
  pooled : ∀ slot ∈ file.pool.nameSlots, file.pool.HasText slot
  fields : ∀ member ∈ file.fields, member.Filled file.pool
  methods : ∀ member ∈ file.methods, member.Filled file.pool
  attributes : ∀ attr ∈ file.attributes, attr.Filled file.pool

/-! ## Trees of a language -/

/-- The language holds the bytes of the trees that are in order, and their values. -/
def SpelledBy {α β : Type} (language : Language β) (bytes : α → List UInt8) (Good : α → Prop)
    (value : α → β) : Prop :=
  ∀ answer p, language answer p ↔ ∃ tree, Good tree ∧ value tree = answer ∧ bytes tree = p

namespace SpelledBy

variable {α : Type} {row : Language (List Text)} {bytes : α → List UInt8} {Good : α → Prop}
  {value : α → List Text}

theorem forall₂_iff (h : SpelledBy row bytes Good value) {names : List (List Text)}
    {rows : List (List UInt8)} : List.Forall₂ row names rows ↔
      ∃ trees : List α,
        (∀ tree ∈ trees, Good tree) ∧ trees.map value = names ∧ trees.map bytes = rows := by
  constructor
  · intro each
    induction each with
    | nil => exact ⟨[], by simp⟩
    | cons first _ ih =>
      obtain ⟨tree, good, rfl, rfl⟩ := (h _ _).1 first
      obtain ⟨trees, others, rfl, rfl⟩ := ih
      exact ⟨tree :: trees, by simpa using ⟨good, others⟩, rfl, rfl⟩
  · rintro ⟨trees, each, rfl, rfl⟩
    rw [List.forall₂_map_left_iff, List.forall₂_map_right_iff, List.forall₂_same]
    exact fun tree mem => (h _ _).2 ⟨tree, each tree mem, rfl, rfl⟩

theorem table (h : SpelledBy row bytes Good value) :
    SpelledBy (Grammar.Table row) (Table.bytes bytes) (fun table => ∀ tree ∈ table.1, Good tree)
      fun table => table.1.flatMap value := by
  intro names p
  constructor
  · rintro ⟨number, each, rfl⟩
    obtain ⟨trees, good, rfl, rfl⟩ := h.forall₂_iff.1 each
    obtain ⟨bound, rfl⟩ := u2_iff.1 number
    rw [List.length_map] at bound
    refine ⟨⟨trees, bound⟩, good, List.flatMap_def .., ?_⟩
    rw [Table.bytes, List.length_map]
  · rintro ⟨⟨trees, bound⟩, good, rfl, rfl⟩
    simp only [List.flatMap_def]
    refine .intro (u2_iff.2 ⟨bound, rfl⟩) (h.forall₂_iff.2 ⟨trees, good, rfl, rfl⟩) ?_
    rw [List.length_map]

end SpelledBy

/-! ## Productions -/

theorem length_flatten_slots_iff {n : Nat} {p : List UInt8} : p.length = 2 * n ↔
    ∃ slots : List UInt16, slots.length = n ∧ (slots.map slotBytes).flatten = p := by
  constructor
  · intro length
    induction n generalizing p with
    | zero => exact ⟨[], rfl, (List.length_eq_zero_iff.1 length).symm⟩
    | succ n ih =>
      obtain ⟨slot, front⟩ := length_eq_two_iff.1 (show (p.take 2).length = 2 by
        rw [List.length_take]
        omega)
      obtain ⟨slots, rfl, back⟩ := ih (show (p.drop 2).length = 2 * n by
        rw [List.length_drop]
        omega)
      refine ⟨slot :: slots, rfl, ?_⟩
      rw [List.map_cons, List.flatten_cons, front, back, List.take_append_drop]
  · rintro ⟨slots, rfl, rfl⟩
    have width : List.length ∘ slotBytes = fun _ => 2 := rfl
    rw [List.length_flatten, List.map_map, width, List.map_const', List.sum_replicate_nat,
      Nat.mul_comm]

theorem parents_spelled {p : List UInt8} : Grammar.Parents () p ↔
    ∃ superSlot interfaces, slotBytes superSlot ++ Table.bytes slotBytes interfaces = p := by
  constructor
  · rintro ⟨length, number, length'⟩
    obtain ⟨superSlot, rfl⟩ := length_eq_two_iff.1 length
    obtain ⟨bound, rfl⟩ := u2_iff.1 number
    obtain ⟨slots, rfl, rfl⟩ := length_flatten_slots_iff.1 length'
    exact ⟨superSlot, ⟨slots, bound⟩, rfl⟩
  · rintro ⟨superSlot, ⟨slots, bound⟩, rfl⟩
    exact .intro rfl (u2_iff.2 ⟨bound, rfl⟩) (length_flatten_slots_iff.2 ⟨slots, rfl, rfl⟩)

variable {pool : Pool}

theorem described_iff (h : pool.Unambiguous) {names : List Text} {p : List UInt8} :
    Grammar.Described pool names p ↔
      ∃ slot, Grammar.U2 slot p ∧ pool.HasNames slot ∧ pool.namesAt slot = names := by
  constructor
  · rintro ⟨number, found, scanned⟩
    obtain ⟨filled, rfl⟩ := h.textAt_iff.1 found
    obtain ⟨complete, rfl⟩ := Descriptor.names_eq_ok.1 scanned
    exact ⟨_, number, ⟨filled, complete⟩, rfl⟩
  · rintro ⟨slot, number, ⟨filled, complete⟩, rfl⟩
    exact .intro number (h.textAt_iff.2 ⟨filled, rfl⟩)
      (Descriptor.names_eq_ok.2 ⟨complete, rfl⟩)

theorem described_spelled (h : pool.Unambiguous) :
    SpelledBy (Grammar.Described pool) slotBytes (fun slot => pool.HasNames slot.toNat)
      fun slot => pool.namesAt slot.toNat := by
  intro names p
  rw [described_iff h]
  constructor
  · rintro ⟨_, number, filled, rfl⟩
    obtain ⟨slot, rfl, rfl⟩ := u2_iff_slot.1 number
    exact ⟨slot, filled, rfl, rfl⟩
  · rintro ⟨slot, filled, rfl, rfl⟩
    exact ⟨_, u2_iff_slot.2 ⟨slot, rfl, rfl⟩, filled, rfl⟩

theorem Attribute.skeleton_other {attr : Attribute}
    (plain : ¬(pool.TextAt attr.nameSlot.toNat ClassFile.signatureName ∧ attr.payload.length = 2)) :
    attr.skeleton pool = .other attr.nameSlot := by
  unfold skeleton
  split
  · next a b payload =>
    rw [if_neg fun found => plain ⟨found, by rw [payload]; rfl⟩]
  · rfl

theorem Attribute.hasText_of_filled {attr : Attribute}
    (filled : (attr.skeleton pool).Filled pool) : pool.HasText attr.nameSlot.toNat := by
  by_cases found : pool.TextAt attr.nameSlot.toNat ClassFile.signatureName
  · exact ⟨_, found⟩
  · rw [skeleton_other fun signature => found signature.1] at filled
    exact filled

theorem length_eq_of_payload {name : Text} {size : Nat} {names : List Text} {p : List UInt8}
    (h : Grammar.Payload pool name size names p) : p.length = size := by
  cases h with
  | signature described =>
    obtain ⟨⟨a, b⟩, -, -⟩ := described
    rfl
  | other _ length => exact length

theorem payload_iff (h : pool.Unambiguous) (attr : Attribute) {name : Text}
    (found : pool.TextAt attr.nameSlot.toNat name) {names : List Text} :
    Grammar.Payload pool name attr.payload.length names attr.payload ↔
      (attr.skeleton pool).Filled pool ∧ (attr.skeleton pool).names pool = names := by
  obtain ⟨nameSlot, payload, fits⟩ := attr
  by_cases signature : name = ClassFile.signatureName ∧ payload.length = 2
  · obtain ⟨rfl, length⟩ := signature
    obtain ⟨a, b, rfl⟩ := List.length_eq_two.1 length
    have skeleton : Attribute.skeleton pool ⟨nameSlot, [a, b], fits⟩ =
        .signature (2 ^ 8 * a.toNat + b.toNat) := if_pos found
    rw [skeleton]
    refine payload_signature_iff.trans ((described_iff h).trans ?_)
    constructor
    · rintro ⟨_, ⟨⟩, filled, rfl⟩
      exact ⟨filled, rfl⟩
    · rintro ⟨filled, rfl⟩
      exact ⟨_, .intro a b, filled, rfl⟩
  · have plain : ¬(pool.TextAt nameSlot.toNat ClassFile.signatureName ∧ payload.length = 2) := by
      rintro ⟨found', length⟩
      rw [← (h.textAt_iff.1 found).2, (h.textAt_iff.1 found').2] at signature
      exact signature ⟨rfl, length⟩
    rw [payload_other_iff signature, Attribute.skeleton_other plain]
    constructor
    · rintro ⟨-, rfl⟩
      exact ⟨⟨name, found⟩, rfl⟩
    · rintro ⟨-, rfl⟩
      exact ⟨rfl, rfl⟩

theorem attribute_spelled (h : pool.Unambiguous) :
    SpelledBy (Grammar.Attribute pool) Attribute.bytes
      (fun attr => (attr.skeleton pool).Filled pool)
      fun attr => (attr.skeleton pool).names pool := by
  intro names p
  constructor
  · rintro ⟨number, found, number', payload⟩
    obtain ⟨slot, rfl, rfl⟩ := u2_iff_slot.1 number
    obtain ⟨fits, rfl⟩ := u4_iff.1 number'
    obtain rfl := length_eq_of_payload payload
    obtain ⟨filled, rfl⟩ := (payload_iff h ⟨slot, _, fits⟩ found).1 payload
    exact ⟨⟨slot, _, fits⟩, filled, rfl, rfl⟩
  · rintro ⟨attr, filled, rfl, rfl⟩
    obtain ⟨name, found⟩ := attr.hasText_of_filled filled
    exact .intro (u2_iff_slot.2 ⟨_, rfl, rfl⟩) found (u4_iff.2 ⟨attr.fits, rfl⟩)
      ((payload_iff h attr found).2 ⟨filled, rfl⟩)

theorem member_spelled (h : pool.Unambiguous) :
    SpelledBy (Grammar.Member pool) Member.bytes
      (fun member => (member.skeleton pool).Filled pool)
      fun member => (member.skeleton pool).names pool := by
  intro names p
  constructor
  · rintro ⟨length, described, attributed⟩
    obtain ⟨flags, nameSlot, rfl⟩ := length_eq_four_iff.1 length
    obtain ⟨descriptorSlot, filled, rfl, rfl⟩ := (described_spelled h _ _).1 described
    obtain ⟨attributes, each, rfl, rfl⟩ := ((attribute_spelled h).table _ _).1 attributed
    refine ⟨⟨flags, nameSlot, descriptorSlot, attributes⟩, ⟨filled, List.forall_mem_map.2 each⟩, ?_,
      rfl⟩
    simp only [MemberSkeleton.names, Member.skeleton, List.flatMap_map]
  · rintro ⟨member, ⟨filled, each⟩, rfl, rfl⟩
    simp only [MemberSkeleton.names, Member.skeleton, List.flatMap_map]
    exact .intro rfl ((described_spelled h _ _).2 ⟨_, filled, rfl, rfl⟩)
      (((attribute_spelled h).table _ _).2 ⟨_, List.forall_mem_map.1 each, rfl, rfl⟩)

/-! ## Files -/

/-- What reading a file with this skeleton and class path gives. -/
def Skeleton.classFile (file : Skeleton) (classPath : Text) : ClassFile where
  classPath := classPath
  pooled := file.pool.classNames
  fields := file.fields.flatMap (MemberSkeleton.names file.pool)
  methods := file.methods.flatMap (MemberSkeleton.names file.pool)
  signature := file.attributes.flatMap (AttributeSkeleton.names file.pool)

theorem file_iff {file : ClassFile} {p : List UInt8} : Grammar.File file p ↔
    ∃ layout : Layout, layout.skeleton.Filled ∧
      layout.pool.ClassAt layout.thisSlot.toNat file.classPath ∧
      layout.skeleton.classFile file.classPath = file ∧ layout.bytes = p := by
  constructor
  · rintro ⟨length, derived, body⟩
    have h := Grammar.Pool.unambiguous_of_constants derived
    obtain ⟨length', number, found, texts, parents, inFields, inMethods, inAttributes⟩ := body
    obtain ⟨flags, rfl⟩ := length_eq_two_iff.1 length'
    obtain ⟨thisSlot, rfl, rfl⟩ := u2_iff_slot.1 number
    obtain ⟨pooled, rfl⟩ := h.forall₂_textAt_iff.1 texts
    obtain ⟨superSlot, interfaces, rfl⟩ := parents_spelled.1 parents
    obtain ⟨fields, hfields, rfl, rfl⟩ := ((member_spelled h).table _ _).1 inFields
    obtain ⟨methods, hmethods, rfl, rfl⟩ := ((member_spelled h).table _ _).1 inMethods
    obtain ⟨attributes, hattributes, rfl, rfl⟩ := ((attribute_spelled h).table _ _).1 inAttributes
    refine ⟨⟨⟨⟨_⟩, length⟩, _, _, derived, flags, thisSlot, superSlot, interfaces, fields, methods,
      attributes⟩, ?_, found, ?_, rfl⟩
    · exact ⟨pooled, List.forall_mem_map.2 hfields, List.forall_mem_map.2 hmethods,
        List.forall_mem_map.2 hattributes⟩
    · simp only [Skeleton.classFile, skeleton, List.flatMap_map]
      rfl
  · rintro ⟨layout, filled, found, equal, rfl⟩
    have h := Grammar.Pool.unambiguous_of_constants layout.derived
    rw [← equal]
    simp only [Skeleton.classFile, skeleton, List.flatMap_map]
    refine .intro layout.header.length_toList layout.derived (.intro rfl
      (u2_iff_slot.2 ⟨_, rfl, rfl⟩) found (h.forall₂_textAt_iff.2 ⟨filled.pooled, rfl⟩)
      (parents_spelled.2 ⟨_, _, rfl⟩) ?_ ?_ ?_)
    · exact ((member_spelled h).table _ _).2 ⟨_, List.forall_mem_map.1 filled.fields, rfl, rfl⟩
    · exact ((member_spelled h).table _ _).2 ⟨_, List.forall_mem_map.1 filled.methods, rfl, rfl⟩
    · exact ((attribute_spelled h).table _ _).2
        ⟨_, List.forall_mem_map.1 filled.attributes, rfl, rfl⟩

end Layout

/-! ## Summaries -/

theorem distinctOnto_eq {seen : Std.HashSet Text} {kept names : List Text}
    (h : ∀ x, x ∈ seen ↔ x ∈ kept) :
    distinctOnto seen kept names =
      kept.reverse ++ (names.filter fun name => decide (name ∉ kept)).eraseDups := by
  induction names generalizing seen kept with
  | nil => simp [distinctOnto]
  | cons x names ih =>
    rw [distinctOnto]
    split
    · next before =>
      rw [ih h, List.filter_cons_of_neg (by simpa using (h x).1 before)]
    · next fresh =>
      have later : ∀ y, y ∈ seen.insert x ↔ y ∈ x :: kept := by grind
      have fresh : x ∉ kept := fun mem => fresh ((h x).2 mem)
      rw [ih later, List.filter_cons_of_pos (by simpa using fresh), List.eraseDups_cons,
        List.filter_filter, List.reverse_cons, List.append_assoc, List.singleton_append]
      congr 3
      refine List.filter_congr fun y _ => ?_
      rw [Bool.eq_iff_iff]
      simp

theorem distinct_eq_eraseDups (names : List Text) : distinct names = names.eraseDups := by
  rw [distinct, distinctOnto_eq (by simp)]
  simp

namespace Layout

/-- The summary of a class file with this skeleton. -/
structure Skeleton.Tells (file : Skeleton) (summary : ClassSummary) : Prop where
  filled : file.Filled
  classPath : file.pool.ClassAt file.thisSlot.toNat summary.classPath
  references : summary.references = (file.mentions.filter fun name =>
    decide (nestedMark ∉ name ∧ name ≠ summary.classPath)).eraseDups

theorem Skeleton.summary_classFile (file : Skeleton) (classPath : Text) :
    (file.classFile classPath).summary = ⟨classPath, (file.mentions.filter fun name =>
      decide (nestedMark ∉ name ∧ name ≠ classPath)).eraseDups⟩ := by
  have kept (name : Text) : (!isNested name && name != classPath) =
      decide (nestedMark ∉ name ∧ name ≠ classPath) := by
    rw [Bool.eq_iff_iff]
    simp [isNested]
  rw [ClassFile.summary, ClassFile.references, distinct_eq_eraseDups]
  simp only [classFile, kept]
  rfl

end Layout

namespace ClassSummary

open Layout

theorem ofBytes_eq_ok_iff_layout {bytes : List UInt8} {summary : ClassSummary} :
    ofBytes bytes = .ok summary ↔
      ∃ (layout : Layout) (rest : List UInt8), layout.skeleton.Tells summary ∧
        bytes = layout.bytes ++ rest := by
  rw [ofBytes_eq_ok_iff]
  constructor
  · rintro ⟨file, p, derived, ⟨rest, rfl⟩, rfl⟩
    obtain ⟨layout, filled, found, equal, rfl⟩ := file_iff.1 derived
    refine ⟨layout, rest, ⟨filled, found, ?_⟩, rfl⟩
    rw [← equal, Skeleton.summary_classFile]
  · rintro ⟨layout, rest, ⟨filled, found, references⟩, rfl⟩
    refine ⟨layout.skeleton.classFile summary.classPath, layout.bytes,
      file_iff.2 ⟨layout, filled, found, rfl, rfl⟩, List.prefix_append .., ?_⟩
    rw [Skeleton.summary_classFile, ← references]

/-- What the summary of an accepted byte string holds: the class path is the text that the class's
own entry names, and the references are the names of the pool, of the fields, of the methods and of
the class's own signatures, without nested classes, the class itself and repetitions. All layouts
with this skeleton have the same summary, whatever follows their bytes. -/
theorem references_of_ofBytes {bytes : List UInt8} {summary : ClassSummary}
    (accepted : ofBytes bytes = .ok summary) :
    ∃ (layout : Layout) (rest : List UInt8), bytes = layout.bytes ++ rest ∧
      layout.skeleton.Filled ∧
      layout.pool.ClassAt layout.thisSlot.toNat summary.classPath ∧
      summary.references = (layout.skeleton.mentions.filter fun name =>
        decide (nestedMark ∉ name ∧ name ≠ summary.classPath)).eraseDups ∧
      summary.references.Nodup ∧
      (∀ name, name ∈ summary.references ↔
        name ∈ layout.skeleton.mentions ∧ nestedMark ∉ name ∧ name ≠ summary.classPath) ∧
      ∀ (other : Layout) (rest' : List UInt8), other.skeleton = layout.skeleton →
        ofBytes (other.bytes ++ rest') = .ok summary := by
  obtain ⟨layout, rest, tells, rfl⟩ := ofBytes_eq_ok_iff_layout.1 accepted
  refine ⟨layout, rest, rfl, tells.filled, tells.classPath, tells.references, ?_, ?_, ?_⟩
  · rw [tells.references, ← distinct_eq_eraseDups]
    exact nodup_distinct _
  · intro name
    rw [tells.references, List.mem_eraseDups, List.mem_filter, decide_eq_true_iff]
  · intro other rest' same
    exact ofBytes_eq_ok_iff_layout.2 ⟨other, rest', same ▸ tells, rfl⟩

/-- A class `A` with a field whose descriptor and signature mention `C`, the nested `A$D` and `B`,
and with an attribute that is no signature. -/
def sampleClass : List UInt8 :=
  [0, 0, 0, 0, 0, 0, 0, 0] ++ [0, 7] ++ [7, 0, 2] ++ [1, 0, 1, 0x41] ++ [7, 0, 4] ++
    [1, 0, 1, 0x42] ++ [1, 0, 9, 0x53, 0x69, 0x67, 0x6E, 0x61, 0x74, 0x75, 0x72, 0x65] ++
    [1, 0, 11, 0x4C, 0x43, 0x3B, 0x4C, 0x41, 0x24, 0x44, 0x3B, 0x4C, 0x42, 0x3B] ++
    [0, 0x21, 0, 1, 0, 3, 0, 0] ++ [0, 1, 0, 0, 0, 2, 0, 6, 0, 1, 0, 5, 0, 0, 0, 2, 0, 6] ++
    [0, 0] ++ [0, 1, 0, 2, 0, 0, 0, 1, 9]

theorem ofBytes_sampleClass :
    ofBytes sampleClass = .ok ⟨"A", [("B" : Text), ("C" : Text)]⟩ := by
  have file : ClassFile.ofBytes sampleClass = .ok ⟨"A", [("A" : Text), ("B" : Text)],
      [("C" : Text), ("A$D" : Text), ("B" : Text), ("C" : Text), ("A$D" : Text), ("B" : Text)],
      [], []⟩ := by
    decide +kernel
  rw [ofBytes, file, Except.map, ClassFile.summary, ClassFile.references, distinct_eq_eraseDups]
  decide +kernel

theorem references_of_ofBytes_sampleClass :
    ofBytes sampleClass = .ok ⟨"A", [("B" : Text), ("C" : Text)]⟩ ∧
      ∃ (layout : Layout) (rest : List UInt8), sampleClass = layout.bytes ++ rest ∧
        layout.pool.ClassAt layout.thisSlot.toNat "A" ∧
        ∀ (other : Layout) (rest' : List UInt8), other.skeleton = layout.skeleton →
          ofBytes (other.bytes ++ rest') = .ok ⟨"A", [("B" : Text), ("C" : Text)]⟩ := by
  obtain ⟨layout, rest, front, -, found, -, -, -, others⟩ :=
    references_of_ofBytes ofBytes_sampleClass
  exact ⟨ofBytes_sampleClass, layout, rest, front, found, others⟩

end ClassSummary

end ClassOrder
