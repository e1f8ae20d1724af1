import ClassOrder.Graph.Record
import ClassOrder.Graph.Search
import ClassOrder.Log

/-!
# Groups of records

The strongly connected components of a directed graph, by two depth-first searches: the first one
orders the vertices by the time they are left, latest first; the second one goes against the edges
from each vertex in that order and collects what it newly enters. Groups made later depend on none
made earlier, so the list of groups has the latest group first.
-/

namespace ClassOrder

namespace Groups

variable {n : Nat}

/-- The vertices in the order of leaving them, latest first. -/
def finishOrder (next : Successors n) : List (Fin n) := (Search.all next).finished

/-- The state of the second search: the groups so far, latest first. -/
structure Flood (n : Nat) where
  search : Search n
  groups : List (List (Fin n))

/-- Makes the group of a root, unless the root is in a group. -/
def flood (previous : Successors n) (state : Flood n) (root : Fin n) : Flood n :=
  if state.search.isSeen root then state
  else
    let search := Search.visit previous { state.search with entered := [] } root
    ⟨search, search.entered.reverse :: state.groups⟩

/-- The groups that arise from the roots in order, latest first. -/
def floodAll (previous : Successors n) (roots : List (Fin n)) : List (List (Fin n)) :=
  (roots.foldl (flood previous) ⟨Search.start, []⟩).groups

/-- The components of a graph that is given by its successor and its predecessor lists. -/
def components (next previous : Successors n) : List (List (Fin n)) :=
  floodAll previous (finishOrder next)

/-! ## Records as vertices -/

/-- The positions below a bound. -/
def bounded (n : Nat) (positions : List Nat) : List (Fin n) :=
  positions.filterMap fun i => if h : i < n then some ⟨i, h⟩ else none

/-- One list of positions for each record, as successor lists. -/
def successors (records : Array ClassRecord) (lists : ClassRecord → List Nat) :
    Successors records.size :=
  Vector.ofFn fun i => bounded records.size (lists records[i])

/-- Whether every position in the lists of the records has a record. -/
def inRange (records : Array ClassRecord) (lists : ClassRecord → List Nat) : Bool :=
  records.all fun record => (lists record).all (· < records.size)

/-- The groups of linked records, dependencies first. -/
def ofLinked (records : Array ClassRecord) : List Group :=
  (components (successors records ClassRecord.outgoing)
    (successors records ClassRecord.incoming)).map fun members => ⟨members.map Fin.val⟩

/-! ## Missing records

A search fails at the first position without a record that it comes to. To tell which one that is,
two vertices without successors are put behind the records, one for each failure; the positions
without a record lead to them. -/

/-- The vertex that a position leads to: a record, or the one for the failure. -/
def target (n index : Nat) : Fin (n + 2) :=
  if h : index < n then Fin.castAdd 2 ⟨index, h⟩
  else
    match RecordError.ofIndex index with
    | .outOfRange => Fin.natAdd n ⟨0, Nat.two_pos⟩
    | .tooLarge => Fin.natAdd n ⟨1, Nat.one_lt_two⟩

/-- The failure that a vertex stands for, if it is no record. -/
def failureOf (v : Fin (n + 2)) : Option RecordError :=
  if v.val < n then none else if v.val = n then some .outOfRange else some .tooLarge

/-- One list of positions for each record, with the two vertices for failures. -/
def targets (records : Array ClassRecord) (lists : ClassRecord → List Nat) :
    Successors (records.size + 2) :=
  Vector.ofFn fun v => (records[v.val]?.elim [] lists).map (target records.size)

/-- The first failure that a search from some records comes to. -/
def firstFailure? (records : Array ClassRecord) (lists : ClassRecord → List Nat)
    (roots : List (Fin records.size)) : Option RecordError :=
  let search := Search.visitAll (targets records lists) (roots.map (Fin.castAdd 2))
  search.entered.reverse.findSome? failureOf

/-- The failure of searching from some records, of which one is known to happen. -/
def firstFailure (records : Array ClassRecord) (lists : ClassRecord → List Nat)
    (roots : List (Fin records.size)) : RecordError :=
  (firstFailure? records lists roots).getD .outOfRange

/-! ## Groups of records -/

/-- Notes in every member of a group which group it is in. -/
def mark (records : Array ClassRecord) (group : Group) (index : Nat) : Array ClassRecord :=
  group.members.foldl
    (fun records member => records.modify member fun record => { record with group := some index })
    records

/-- Notes in every record which group it is in. -/
def markAll (records : Array ClassRecord) (groups : List Group) : Array ClassRecord :=
  groups.zipIdx.foldl (fun records (group, index) => mark records group index) records

/-- The groups of the records, and the records with their groups noted. The search along the
outgoing links comes first, so its failure does. -/
def find (records : Array ClassRecord) :
    Except RecordError (Array ClassRecord × List Group) :=
  if !inRange records ClassRecord.outgoing then
    .error (firstFailure records ClassRecord.outgoing (List.finRange records.size))
  else if !inRange records ClassRecord.incoming then
    .error (firstFailure records ClassRecord.incoming
      (finishOrder (successors records ClassRecord.outgoing)))
  else
    let groups := ofLinked records
    .ok (markAll records groups, groups)

/-! ## Groups in place

The same on an arena as it stands: both searches look every position up when they come to it and
fail at the first one without a record, and the groups are noted only then, record by record. -/

section Walk

variable (records : Array ClassRecord) (lists : ClassRecord → List Nat)

/-- Runs until the stack is empty or a position has no record. -/
def walk (s : Search records.size) (stack : List (Fin records.size × List Nat)) :
    Except RecordError (Search records.size) :=
  match stack with
  | [] => .ok s
  | (v, []) :: below => walk (s.finish v) below
  | (v, i :: rest) :: below =>
    if h : i < records.size then
      if _seen : s.isSeen ⟨i, h⟩ then walk s ((v, rest) :: below)
      else walk (s.enter ⟨i, h⟩) ((⟨i, h⟩, lists records[i]) :: (v, rest) :: below)
    else .error (.ofIndex i)
termination_by (s.unseen, stack.length + (stack.flatMap Prod.snd).length)
decreasing_by
  · apply Prod.Lex.right'
    · exact Nat.le_of_eq (Search.unseen_finish s v)
    · simp
  · apply Prod.Lex.right
    simp
  · apply Prod.Lex.left
    exact Search.unseen_enter _seen

/-- Searches from a record, unless it is seen. -/
def walkFrom (s : Search records.size) (root : Fin records.size) :
    Except RecordError (Search records.size) :=
  if s.isSeen root then .ok s
  else walk records lists (s.enter root) [(root, records[root.val]?.elim [] lists)]

/-- Makes the group of a root, unless the root is in a group. -/
def floodFrom (state : Flood records.size) (root : Fin records.size) :
    Except RecordError (Flood records.size) :=
  if state.search.isSeen root then .ok state
  else do
    let search ← walkFrom records lists { state.search with entered := [] } root
    return ⟨search, search.entered.reverse :: state.groups⟩

end Walk

/-- The first pass: the records in the order of leaving them along the outgoing links, latest
first. -/
def leave (records : Array ClassRecord) : Except RecordError (List (Fin records.size)) := do
  let search ← (List.finRange records.size).foldlM (walkFrom records ClassRecord.outgoing) .start
  return search.finished

/-- The positions of the records in that order. -/
def leavingOrder (records : Array ClassRecord) : Except RecordError (List Nat) := do
  return (← leave records).map Fin.val

/-- The second pass: the groups that arise along the incoming links from some records in order, in
the order of making them. -/
def createdGroups (records : Array ClassRecord) (order : List (Fin records.size)) :
    Except RecordError (List (List Nat)) := do
  let state ← order.foldlM (floodFrom records ClassRecord.incoming) ⟨.start, []⟩
  return state.groups.reverse.map (List.map Fin.val)

/-- The groups of an arena, by both passes. Groups made later are listed first. -/
def groupsOf (records : Array ClassRecord) : Except RecordError (List Group) := do
  let created ← createdGroups records (← leave records)
  return created.reverse.map Group.mk

/-- Notes in the members of a group which group they are in, one after another. -/
def noteMembers (entry : Group × Nat) : ArenaM Unit :=
  entry.1.members.forM fun member =>
    ArenaM.alter member fun record => { record with group := some entry.2 }

/-- Finds the groups of an arena and notes them in its records. -/
def findInPlace : ArenaM (List Group) := do
  let groups ← ArenaM.asks groupsOf
  groups.zipIdx.forM noteMembers
  return groups

/-! ## Reports -/

/-- How many groups are cyclic. -/
def cyclicCount (groups : List Group) : Nat := groups.countP Group.isCyclic

/-- What finding the groups reports. -/
def log (groups : List Group) : List LogLine :=
  [⟨.debug, "Found " ++ Text.ofNat groups.length ++ " group(s), " ++
    Text.ofNat (cyclicCount groups) ++ " cyclic"⟩]

end Groups

end ClassOrder
