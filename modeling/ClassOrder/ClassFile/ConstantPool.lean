import ClassOrder.ClassFile.Reader

/-!
# The constant pool

The numbered slots of constants at the front of a class file. Texts and class references are kept;
other constants only take up their slots. Slot 0 is never used, and an eight-byte number takes two
slots, the second of which holds nothing.
-/

namespace ClassOrder

/-- A constant, as far as class names need it. -/
inductive Constant where
  | text (value : Text)
  /-- A class, by the slot of its name. -/
  | classRef (nameIndex : Nat)
  /-- Any other constant. -/
  | other (wide : Bool)
  deriving DecidableEq, Repr

namespace Constant

/-- The number of bytes behind the tag of a constant that is passed over. -/
def payloadSize? : Nat → Option Nat
  | 3 | 4 | 9 | 10 | 11 | 12 | 18 => some 4
  | 5 | 6 => some 8
  | 8 | 16 => some 2
  | 15 => some 3
  | _ => none

/-- Whether constants with this tag take two slots. -/
def isWideTag (tag : Nat) : Bool := tag == 5 || tag == 6

/-- Whether the constant takes two slots. -/
def isWide : Constant → Bool
  | other wide => wide
  | _ => false

/-- Reads the constant of a slot. -/
def read (index : Nat) : Reader Constant := do
  let tag ← Reader.u1
  if tag = 1 then
    return .text (← Reader.text)
  else if tag = 7 then
    return .classRef (← Reader.u2)
  else match payloadSize? tag with
    | some size =>
      Reader.skip size
      return .other (isWideTag tag)
    | none => throw (.unknownTag tag index ((← Reader.position) - 1))

end Constant

/-- The slots in order, from slot 0. -/
structure ConstantPool where
  slots : Array (Option Constant)
  deriving DecidableEq, Repr

namespace ConstantPool

/-- The pool with no constant. -/
def empty : ConstantPool := ⟨#[none]⟩

/-- The number of the next free slot. -/
def size (pool : ConstantPool) : Nat := pool.slots.size

/-- Puts a constant into the next free slot. -/
def push (pool : ConstantPool) (constant : Constant) : ConstantPool :=
  let slots := pool.slots.push (some constant)
  ⟨if constant.isWide then slots.push none else slots⟩

theorem size_push (pool : ConstantPool) (constant : Constant) :
    (pool.push constant).size = pool.size + if constant.isWide then 2 else 1 := by
  unfold push size
  split <;> simp

theorem size_lt_size_push (pool : ConstantPool) (constant : Constant) :
    pool.size < (pool.push constant).size := by
  rw [size_push]
  split <;> omega

/-- Reads constants as long as a slot below the count is free. -/
def fill (count : Nat) (pool : ConstantPool) : Reader ConstantPool :=
  if pool.size < count then do
    let constant ← Constant.read pool.size
    fill count (pool.push constant)
  else pure pool
termination_by count - pool.size
decreasing_by
  have := size_lt_size_push pool constant
  omega

/-- Reads a pool: the number of slots, slot 0 included, then the constants. -/
def read : Reader ConstantPool := do
  let count ← Reader.u2
  fill count empty

/-- The constant that starts at a slot. -/
def constant? (pool : ConstantPool) (index : Nat) : Option Constant := pool.slots[index]?.join

/-- The text at a slot. -/
def text (pool : ConstantPool) (index : Nat) : Except Malformed Text :=
  match pool.constant? index with
  | some (.text value) => .ok value
  | _ => .error (.wrongEntry .text index)

/-- The name of the class at a slot. -/
def className (pool : ConstantPool) (index : Nat) : Except Malformed Text :=
  match pool.constant? index with
  | some (.classRef nameIndex) => pool.text nameIndex
  | _ => .error (.wrongEntry .classRef index)

/-- The slots of the names of all classes in the pool, in slot order. -/
def classNameIndices (pool : ConstantPool) : List Nat :=
  pool.slots.toList.filterMap fun
    | some (.classRef nameIndex) => some nameIndex
    | _ => none

/-- The names of all classes in the pool, in slot order. -/
def classNames (pool : ConstantPool) : Except Malformed (List Text) :=
  pool.classNameIndices.mapM pool.text

end ConstantPool

end ClassOrder
