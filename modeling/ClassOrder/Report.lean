import ClassOrder.Graph.Record

/-!
# The report

A group of one class is a line with the names it refers to. A cyclic group is a line with the names
of its members and then an indented line for each member.
-/

namespace ClassOrder

namespace Report

/-- What stands in front of a line inside a cyclic group. -/
def indent : Text := "    "

/-- The names of the records at some positions. -/
def classNames (records : Array ClassRecord) (positions : List Nat) :
    Except RecordError (List Text) :=
  positions.mapM fun i => (ClassRecord.lookup records i).map ClassRecord.className

/-- The line of a record. -/
def recordLine (records : Array ClassRecord) (record : ClassRecord) : Except RecordError Text := do
  let names ← classNames records record.outgoing
  return record.className ++ " -> " ++ Text.bracketed names

/-- The line of the record at a position. -/
def lineAt (records : Array ClassRecord) (index : Nat) : Except RecordError Text := do
  recordLine records (← ClassRecord.lookup records index)

/-- The lines of a group. -/
def groupLines (records : Array ClassRecord) (group : Group) : Except RecordError (List Text) :=
  match group.members with
  | [] => .error .outOfRange
  | [member] => do return [← lineAt records member]
  | members => do
    let names ← classNames records members
    let lines ← members.mapM (lineAt records)
    return Text.bracketed names :: lines.map (indent ++ ·)

/-- The lines of all groups, in order. -/
def lines (records : Array ClassRecord) (groups : List Group) : Except RecordError (List Text) := do
  return (← groups.mapM (groupLines records)).flatten

end Report

end ClassOrder
