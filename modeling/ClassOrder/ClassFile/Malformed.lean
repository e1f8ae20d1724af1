import ClassOrder.ClassFile.ModifiedUtf8
import ClassOrder.Text.Quoted

/-!
# Malformed class files

The causes for which a byte sequence is refused as a class file, and their wording.
-/

namespace ClassOrder

/-- The kinds of constants that are looked up by their slots. -/
inductive EntryKind where
  | text
  | classRef
  deriving DecidableEq, Repr

namespace EntryKind

/-- What is said of a slot that holds no constant of the kind. -/
def denial : EntryKind → Text
  | text => " is not a UTF8 entry."
  | classRef => " is not a class entry."

end EntryKind

/-- Why a byte sequence is no class file. -/
inductive Malformed where
  /-- Fewer bytes are left than the format asks for. -/
  | endOfStream (position expected got : Nat)
  /-- A text constant is not in modified UTF-8. -/
  | encoding (fault : ModifiedUtf8.Fault)
  /-- A descriptor ends inside a class name. -/
  | unterminatedName (descriptor : Text)
  /-- No kind of constant has this tag. -/
  | unknownTag (tag index position : Nat)
  /-- The slot holds no constant of the kind. -/
  | wrongEntry (kind : EntryKind) (index : Nat)
  deriving DecidableEq, Repr

namespace Malformed

def message : Malformed → Text
  | endOfStream position expected got =>
    "Unexpected end of stream at byte " ++ Text.ofNat position ++ ": expected " ++
      Text.ofNat expected ++ " bytes, got " ++ Text.ofNat got ++ "."
  | encoding fault => "Invalid UTF8 constant: " ++ fault.message
  | unterminatedName descriptor =>
    "Unterminated class name in descriptor " ++ Text.quoted descriptor ++ "."
  | unknownTag tag index position =>
    "Unknown constant pool tag " ++ Text.ofNat tag ++ " at index " ++ Text.ofNat index ++
      " (byte " ++ Text.ofNat position ++ ")."
  | wrongEntry kind index => "Constant pool index " ++ Text.ofNat index ++ kind.denial

end Malformed

end ClassOrder
