import ClassOrder.ClassFile.Basic
import Mathlib.Algebra.Group.Nat.Defs
import Mathlib.Data.List.Forall2

/-!
# The grammar of class files

What a byte string must be to stand for a class file, with no mention of how it is read. Every rule
relates the names found in a part of the file to the bytes of that part.
-/

namespace ClassOrder

/-- Answers, and the byte strings that stand for them. -/
abbrev Language (α : Type) := α → List UInt8 → Prop

namespace Grammar

/-! ## Numbers -/

inductive U2 : Language Nat
  | intro (a b : UInt8) : U2 (2 ^ 8 * a.toNat + b.toNat) [a, b]

inductive U4 : Language Nat
  | intro (a b c d : UInt8) :
    U4 (2 ^ 24 * a.toNat + 2 ^ 16 * b.toNat + 2 ^ 8 * c.toNat + d.toNat) [a, b, c, d]

/-! ## Constants -/

/-- The tags of constants that are passed over, each with the size of the payload and whether the
constant takes two slots. -/
def plainTags : List (UInt8 × Nat × Bool) :=
  [(3, 4, false), (4, 4, false), (5, 8, true), (6, 8, true), (8, 2, false), (9, 4, false),
    (10, 4, false), (11, 4, false), (12, 4, false), (15, 3, false), (16, 2, false), (18, 4, false)]

/-- A size, then that many bytes in modified UTF-8. -/
inductive Encoded : Language Text
  | intro {size : Nat} {value : Text} {p payload : List UInt8} :
    U2 size p → payload.length = size → ModifiedUtf8.decode payload = .ok value →
      Encoded value (p ++ payload)

/-- A tag and the payload of its kind. -/
inductive Entry : Language Constant
  | text {value : Text} {p : List UInt8} : Encoded value p → Entry (.text value) (1 :: p)
  | classRef {nameSlot : Nat} {p : List UInt8} :
    U2 nameSlot p → Entry (.classRef nameSlot) (7 :: p)
  | other {tag : UInt8} {size : Nat} {wide : Bool} {payload : List UInt8} :
    (tag, size, wide) ∈ plainTags → payload.length = size → Entry (.other wide) (tag :: payload)

/-- The constants of a file, each behind the slot at which it starts. -/
abbrev Pool := List (Nat × Constant)

/-- The constants from a slot on, read as long as the next slot is below the count. -/
inductive Slots (count : Nat) : Nat → Language Pool
  | done {slot : Nat} : count ≤ slot → Slots count slot [] []
  | entry {slot : Nat} {constant : Constant} {pool : Pool} {p q : List UInt8} :
    slot < count → Entry constant p →
      Slots count (slot + if constant.isWide then 2 else 1) pool q →
      Slots count slot ((slot, constant) :: pool) (p ++ q)

namespace Pool

variable (pool : Pool)

/-- A text starts at the slot. -/
def TextAt (slot : Nat) (value : Text) : Prop := (slot, .text value) ∈ pool

/-- A class starts at the slot, and its name is a text of the pool. -/
def ClassAt (slot : Nat) (name : Text) : Prop :=
  ∃ nameSlot, (slot, .classRef nameSlot) ∈ pool ∧ pool.TextAt nameSlot name

/-- The slots of the names of all classes, in order. -/
def nameSlots : List Nat :=
  pool.filterMap fun
    | (_, .classRef nameSlot) => some nameSlot
    | _ => none

end Pool

/-! ## Members and attributes -/

/-- A count, then that many rows. The names are those of the rows in order. -/
inductive Table (row : Language (List Text)) : Language (List Text)
  | intro {count : Nat} {names : List (List Text)} {p : List UInt8} {rows : List (List UInt8)} :
    U2 count p → List.Forall₂ row names rows → names.length = count →
      Table row names.flatten (p ++ rows.flatten)

/-- The slot of a descriptor or signature in which every name is ended. -/
inductive Described (pool : Pool) : Language (List Text)
  | intro {slot : Nat} {descriptor : Text} {names : List Text} {p : List UInt8} :
    U2 slot p → pool.TextAt slot descriptor → Descriptor.names descriptor = .ok names →
      Described pool names p

/-- The bytes of an attribute of a name and a size. A signature of two bytes is the slot of its text;
anything else is passed over. -/
inductive Payload (pool : Pool) : Text → Nat → Language (List Text)
  | signature {names : List Text} {p : List UInt8} :
    Described pool names p → Payload pool ClassFile.signatureName 2 names p
  | other {name : Text} {size : Nat} {p : List UInt8} :
    ¬(name = ClassFile.signatureName ∧ size = 2) → p.length = size → Payload pool name size [] p

inductive Attribute (pool : Pool) : Language (List Text)
  | intro {nameSlot size : Nat} {name : Text} {names : List Text} {p q payload : List UInt8} :
    U2 nameSlot p → pool.TextAt nameSlot name → U4 size q →
      Payload pool name size names payload → Attribute pool names (p ++ (q ++ payload))

/-- Flags and a name, the descriptor, then the attributes of a field or method. -/
inductive Member (pool : Pool) : Language (List Text)
  | intro {described attributed : List Text} {start p q : List UInt8} :
    start.length = 4 → Described pool described p → Table (Attribute pool) attributed q →
      Member pool (described ++ attributed) (start ++ (p ++ q))

/-! ## Files -/

/-- A count of slots, slot 0 included, and the constants from slot 1 on. -/
inductive Constants : Language Pool
  | intro {count : Nat} {pool : Pool} {p q : List UInt8} :
    U2 count p → Slots count 1 pool q → Constants pool (p ++ q)

/-- The superclass, and a table of interfaces. -/
inductive Parents : Language Unit
  | intro {interfaces : Nat} {super p slots : List UInt8} :
    super.length = 2 → U2 interfaces p → slots.length = 2 * interfaces →
      Parents () (super ++ (p ++ slots))

/-- What follows the constants. All class names of the pool must be there. -/
inductive Body (pool : Pool) : Language ClassFile
  | intro {slot : Nat} {classPath : Text} {pooled inFields inMethods inSignature : List Text}
      {flags p parents fields methods attributes : List UInt8} :
    flags.length = 2 → U2 slot p → pool.ClassAt slot classPath →
      List.Forall₂ pool.TextAt pool.nameSlots pooled → Parents () parents →
      Table (Member pool) inFields fields → Table (Member pool) inMethods methods →
      Table (Attribute pool) inSignature attributes →
      Body pool ⟨classPath, pooled, inFields, inMethods, inSignature⟩
        (flags ++ (p ++ (parents ++ (fields ++ (methods ++ attributes)))))

/-- A whole class file. -/
inductive File : Language ClassFile
  | intro {pool : Pool} {file : ClassFile} {header constants body : List UInt8} :
    header.length = 8 → Constants pool constants → Body pool file body →
      File file (header ++ (constants ++ body))

/-- Some prefix of the bytes is a class file. -/
def Accepts (bytes : List UInt8) : Prop := ∃ file p, File file p ∧ p <+: bytes

end Grammar

end ClassOrder
