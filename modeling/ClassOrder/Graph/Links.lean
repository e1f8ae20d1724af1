import ClassOrder.Graph.Record
import ClassOrder.Log
import Std.Data.HashMap

/-!
# Links between records

Reference names are resolved to records of the same directory. When several records have one class
path, the last of them defines it. A name that no record defines, or that leads back to the record
itself, gives no link.
-/

namespace ClassOrder

namespace Links

/-- The record that defines each class path: the last one with that path. -/
def definitions (records : Array ClassRecord) : Std.HashMap Text Nat :=
  records.toList.zipIdx.foldl (fun known (record, i) => known.insert record.classPath i) ∅

/-- The report that a file defines a class path which an earlier file defines too. -/
def shadowing (record : ClassRecord) (earlierFile : Text) : LogLine :=
  ⟨.warning, "Class " ++ record.classPath ++ " is defined by both " ++ earlierFile ++ " and " ++
    record.fileName ++ "; using " ++ record.fileName ++ "."⟩

/-- One report for each record whose class path was defined before; `files` holds the last file to
define each path. -/
def shadowings (files : Std.HashMap Text Text) : List ClassRecord → List LogLine
  | [] => []
  | record :: records =>
    let reports := (files[record.classPath]?).toList.map (shadowing record)
    reports ++ shadowings (files.insert record.classPath record.fileName) records

/-- The records that a record refers to, in the order of its references. -/
def targets (known : Std.HashMap Text Nat) (index : Nat) (record : ClassRecord) : List Nat :=
  (record.references.filterMap (known[·]?)).filter (· != index)

/-- Adds a position to the lists of its targets. -/
def addSource (sources : Array (List Nat)) (index : Nat) (targets : List Nat) :
    Array (List Nat) :=
  targets.foldl (fun sources target => sources.modify target (index :: ·)) sources

/-- For each position the positions whose lists hold it, in increasing order and as often as they
hold it. -/
def transpose (lists : List (List Nat)) : Array (List Nat) :=
  lists.zipIdx.foldr (fun (targets, i) sources => addSource sources i targets)
    (Array.replicate lists.length [])

/-- Sets the links of every record. -/
def connect (records : Array ClassRecord) : Array ClassRecord :=
  let known := definitions records
  let linked := records.mapIdx fun i record => { record with outgoing := targets known i record }
  let sources := transpose (linked.toList.map ClassRecord.outgoing)
  linked.mapIdx fun i record => { record with incoming := sources.getD i [] }

/-! ## Links in place

The same on an arena as it stands, in three passes: the outgoing links of every record are cleared
and made anew, the incoming ones are cleared, and every record is noted in those it links to. -/

/-- Links a record to the one that a name leads to, unless that is none or the record itself. -/
def follow (known : Std.HashMap Text Nat) (i : Nat) (name : Text) : ArenaM Unit :=
  match known[name]? with
  | none => pure ()
  | some target =>
    if target = i then pure ()
    else ArenaM.alter i fun record => { record with outgoing := record.outgoing ++ [target] }

/-- Makes the outgoing links of a record anew. -/
def relink (known : Std.HashMap Text Nat) (i : Nat) : ArenaM Unit := do
  ArenaM.alter i fun record => { record with outgoing := [] }
  let record ← ArenaM.recordAt i
  record.references.forM (follow known i)

/-- Removes the incoming links of a record. -/
def clearIncoming (i : Nat) : ArenaM Unit :=
  ArenaM.alter i fun record => { record with incoming := [] }

/-- Notes that a record links to another one. -/
def noteSource (i target : Nat) : ArenaM Unit :=
  ArenaM.alter target fun record => { record with incoming := record.incoming ++ [i] }

/-- Notes a record in all those that it links to. -/
def reverse (i : Nat) : ArenaM Unit := do
  let record ← ArenaM.recordAt i
  record.outgoing.forM (noteSource i)

/-- Links the records of an arena, and tells which record defines each class path. -/
def connectInPlace : ArenaM (Std.HashMap Text Nat) := do
  let records ← get
  let known := definitions records
  (List.range records.size).forM (relink known)
  (List.range records.size).forM clearIncoming
  (List.range records.size).forM reverse
  return known

/-! ## Reports -/

/-- What setting the links reports. -/
def log (records : Array ClassRecord) : List LogLine := shadowings ∅ records.toList

end Links

end ClassOrder
