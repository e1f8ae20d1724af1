import ClassOrder.ClassFile.References
import ClassOrder.Size

/-!
# Class records

The classes of a directory are kept in an array of records. Edges between them, and the groups they
fall into, are given by positions in that array.
-/

namespace ClassOrder

/-- One class of a directory. -/
structure ClassRecord where
  fileName : Text
  /-- The name under which the class is reported. -/
  className : Text
  /-- The name by which other classes refer to it. -/
  classPath : Text
  references : List Text
  /-- The records that this class refers to. -/
  outgoing : List Nat := []
  /-- The records that refer to this class. -/
  incoming : List Nat := []
  /-- The group of the record, once groups are known. -/
  group : Option Nat := none
  deriving DecidableEq, Repr

/-- A list of records that are reported together. -/
structure Group where
  members : List Nat
  deriving DecidableEq, Repr

namespace Group

/-- Whether the members refer to each other. -/
def isCyclic (group : Group) : Bool := 1 < group.members.length

end Group

/-- Failures of looking records up. -/
inductive RecordError where
  /-- A position at which no record is, or the first member of a group that has none. -/
  | outOfRange
  /-- A number that is too great to be a position. -/
  | tooLarge
  deriving DecidableEq, Repr

namespace RecordError

def message : RecordError → String
  | outOfRange => "list index out of range"
  | tooLarge => Size.excessMessage

/-- The failure of looking at a number at which no record is. -/
def ofIndex (index : Nat) : RecordError := if Size.isSize index then outOfRange else tooLarge

end RecordError

namespace ClassRecord

/-- The record at a position. -/
def lookup (records : Array ClassRecord) (index : Nat) : Except RecordError ClassRecord :=
  match records[index]? with
  | some record => .ok record
  | none => .error (.ofIndex index)

/-- Changes the record at a position. -/
def updateAt (records : Array ClassRecord) (index : Nat) (f : ClassRecord → ClassRecord) :
    Except RecordError (Array ClassRecord) :=
  if index < records.size then .ok (records.modify index f) else .error (.ofIndex index)

end ClassRecord

/-- A computation on an arena of records. A failed one leaves the arena as far as it got. -/
abbrev ArenaM := EStateM RecordError (Array ClassRecord)

namespace ArenaM

/-- What the arena tells. -/
def asks {α : Type} (f : Array ClassRecord → Except RecordError α) : ArenaM α := fun records =>
  match f records with
  | .ok a => .ok a records
  | .error e => .error e records

/-- The record at a position. -/
def recordAt (i : Nat) : ArenaM ClassRecord := asks (ClassRecord.lookup · i)

/-- Changes the record at a position. -/
def alter (i : Nat) (f : ClassRecord → ClassRecord) : ArenaM Unit := fun records =>
  match ClassRecord.updateAt records i f with
  | .ok records => .ok () records
  | .error e => .error e records

end ArenaM

end ClassOrder
