import ClassOrder.ClassFile.ConstantPool
import ClassOrder.ClassFile.Descriptor

/-!
# Class files

A class file is read front to back for the names of classes it mentions: in the constant pool, in
the descriptors and signatures of its fields and methods, and in its own signature. Headers, flags,
superclasses, interfaces, member names and all other attributes are passed over.
-/

namespace ClassOrder

/-- The name of a class and the class names it mentions, by place of mention. -/
structure ClassFile where
  classPath : Text
  pooled : List Text
  fields : List Text
  methods : List Text
  signature : List Text
  deriving DecidableEq, Repr

namespace ClassFile

/-- The attribute that holds a generic signature. -/
def signatureName : Text := "Signature"

/-- The names in the descriptor or signature at a slot. -/
def namesAt (pool : ConstantPool) (index : Nat) : Reader (List Text) := do
  let descriptor ← Reader.ofExcept (pool.text index)
  Reader.ofExcept (Descriptor.names descriptor)

/-- The names in one attribute: those of a signature, and none of any other. -/
def readAttribute (pool : ConstantPool) : Reader (List Text) := do
  let name ← Reader.ofExcept (pool.text (← Reader.u2))
  let size ← Reader.u4
  if name = signatureName ∧ size = 2 then
    namesAt pool (← Reader.u2)
  else
    Reader.skip size
    return []

/-- The names in a table of attributes. -/
def readAttributes (pool : ConstantPool) : Reader (List Text) :=
  List.flatten <$> Reader.table (readAttribute pool)

/-- The names in the descriptor of a field or method, then those in its attributes. -/
def readMember (pool : ConstantPool) : Reader (List Text) := do
  Reader.skip 4
  let described ← namesAt pool (← Reader.u2)
  let attributed ← readAttributes pool
  return described ++ attributed

/-- The names in a table of fields or methods. -/
def readMembers (pool : ConstantPool) : Reader (List Text) :=
  List.flatten <$> Reader.table (readMember pool)

/-- Reads a whole class file. -/
def read : Reader ClassFile := do
  Reader.skip 8
  let pool ← ConstantPool.read
  Reader.skip 2
  let classPath ← Reader.ofExcept (pool.className (← Reader.u2))
  let pooled ← Reader.ofExcept pool.classNames
  Reader.skip 2
  let interfaces ← Reader.u2
  Reader.skip (2 * interfaces)
  let fields ← readMembers pool
  let methods ← readMembers pool
  let signature ← readAttributes pool
  return { classPath, pooled, fields, methods, signature }

/-- The class file that a byte sequence starts with. -/
def ofBytes (bytes : List UInt8) : Except Malformed ClassFile :=
  match read (ByteStream.ofBytes bytes) with
  | .ok file _ => .ok file
  | .error e _ => .error e

/-- All mentioned names, in the order of mention. -/
def mentions (file : ClassFile) : List Text :=
  file.pooled ++ file.fields ++ file.methods ++ file.signature

end ClassFile

end ClassOrder
