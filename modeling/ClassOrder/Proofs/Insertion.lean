import ClassOrder.Proofs.Analysis
import ClassOrder.Proofs.Connections
import ClassOrder.Proofs.Recursion

/-!
# Records without connections

A record that is put among others, refers to none of them and is referred to by none moves the
records behind it by one position. Their links move along and are otherwise the same
(`grows_connect`). A search goes the same way under the new numbers and passes the new record
without going anywhere from it (`ofList_map`, `exists_postorder_all`), so that its group stands
alone between two groups (`exists_ofLinked_grown`), and so does its line in the report.
-/

namespace ClassOrder

/-! ## Positions after an insertion -/

namespace Insertion

/-- Where the element at a position is after an insertion at `p`. -/
def shift (p i : Nat) : Nat := if i < p then i else i + 1

variable {p i j n : Nat}

theorem shift_ne (p i : Nat) : shift p i ≠ p := by
  unfold shift
  split <;> omega

theorem shift_injective (p : Nat) : Function.Injective (shift p) := by
  intro i j same
  unfold shift at same
  split at same <;> split at same <;> omega

theorem shift_le_shift_iff : shift p i ≤ shift p j ↔ i ≤ j := by
  unfold shift
  split <;> split <;> omega

theorem exists_shift_of_ne (h : j ≠ p) : ∃ i, shift p i = j := by
  rcases Nat.lt_or_gt_of_ne h with lt | gt
  · exact ⟨j, if_pos lt⟩
  · refine ⟨j - 1, ?_⟩
    unfold shift
    split <;> omega

theorem shift_lt_succ_iff (h : p ≤ n) : shift p i < n + 1 ↔ i < n := by
  unfold shift
  split <;> omega

theorem getElem?_insertIdx_shift {α : Type} {xs : Array α} {x : α} (h : p ≤ xs.size) (i : Nat) :
    (xs.insertIdx p x h)[shift p i]? = xs[i]? := by
  rw [Array.getElem?_insertIdx, if_neg (shift_ne p i)]
  unfold shift
  by_cases lt : i < p
  · rw [if_pos lt, if_pos lt]
  · rw [if_neg lt, if_neg (by omega), Nat.add_sub_cancel]

/-- All positions after an insertion: the shifted ones, with the new one in their midst. -/
theorem range_succ_eq (h : p ≤ n) :
    List.range (n + 1) =
      ((List.range n).take p).map (shift p) ++ p :: ((List.range n).drop p).map (shift p) := by
  apply List.ext_getElem?
  intro k
  have front : (((List.range n).take p).map (shift p)).length = p := by simp [h]
  rcases Nat.lt_trichotomy k p with lt | rfl | gt
  · rw [List.getElem?_append_left (by omega)]
    simp [shift, lt, Nat.lt_of_lt_of_le lt h, Nat.lt_succ_of_lt (Nat.lt_of_lt_of_le lt h)]
  · rw [List.getElem?_append_right (by omega), front]
    simp [Nat.lt_succ_of_le h]
  · obtain ⟨d, rfl⟩ := Nat.exists_eq_add_of_lt gt
    rw [List.getElem?_append_right (by omega), front]
    have behind : p + d + 1 - p = d + 1 := by omega
    have notBefore : ¬ p + d < p := by omega
    rw [behind, List.getElem?_cons_succ, List.getElem?_map, List.getElem?_drop]
    by_cases inside : p + d < n
    · simp [inside, shift, notBefore]
    · simp [inside]

section Vertices

variable {m : Nat} (h : p ≤ n) (size : m = n + 1)

/-- The shifted positions as vertices. -/
def rename (v : Fin n) : Fin m := ⟨shift p v, size ▸ (shift_lt_succ_iff h).2 v.isLt⟩

/-- The new position as a vertex. -/
def place : Fin m := ⟨p, by omega⟩

theorem rename_injective : Function.Injective (rename h size) := fun _ _ same =>
  Fin.ext (shift_injective p (Fin.ext_iff.1 same))

theorem rename_ne_place (v : Fin n) : rename h size v ≠ place h size := fun same =>
  shift_ne p v (Fin.ext_iff.1 same)

theorem finRange_eq :
    List.finRange m = ((List.finRange n).take p).map (rename h size) ++
      place h size :: ((List.finRange n).drop p).map (rename h size) := by
  refine List.map_injective_iff.2 Fin.val_injective ?_
  rw [List.map_append, List.map_cons, List.map_map, List.map_map]
  change _ = List.map (shift p ∘ Fin.val) _ ++ p :: List.map (shift p ∘ Fin.val) _
  rw [← List.map_map, ← List.map_map, List.map_take, List.map_drop,
    List.map_coe_finRange_eq_range, List.map_coe_finRange_eq_range, size, range_succ_eq h]

theorem bounded_map_shift (positions : List Nat) :
    Groups.bounded m (positions.map (shift p)) =
      (Groups.bounded n positions).map (rename h size) := by
  rw [Groups.bounded, Groups.bounded, List.filterMap_map, List.map_filterMap]
  refine List.filterMap_congr fun i _ => ?_
  by_cases lt : i < n
  · have lt' : shift p i < m := size ▸ (shift_lt_succ_iff h).2 lt
    rw [Function.comp_apply, dif_pos lt, dif_pos lt']
    rfl
  · have lt' : ¬ shift p i < m := size ▸ mt (shift_lt_succ_iff h).1 lt
    rw [Function.comp_apply, dif_neg lt, dif_neg lt']
    rfl

end Vertices

end Insertion

open Insertion

/-! ## Searches under other names of the vertices -/

namespace Visit

variable {n m : Nat}

/-- A visit with other names of the vertices, beside some further vertices that were visited. -/
def renamed (rename : Fin n → Fin m) (others : Finset (Fin m)) (visit : Visit n) : Visit m where
  visited := visit.visited.image rename ∪ others
  preorder := visit.preorder.map rename
  postorder := visit.postorder.map rename

/-- A graph that holds another one under other names, and a vertex that nothing leads on from. -/
structure Extends (rename : Fin n → Fin m) (q : Fin m) (next : Fin n → List (Fin n))
    (next' : Fin m → List (Fin m)) : Prop where
  successors : ∀ v, next' (rename v) = (next v).map rename
  isolated : next' q = []

theorem ofList_append (next : Fin n → List (Fin n)) (visited : Finset (Fin n))
    (front back : List (Fin n)) :
    ofList next visited (front ++ back) =
      let first := ofList next visited front
      let later := ofList next first.visited back
      ⟨later.visited, first.preorder ++ later.preorder, first.postorder ++ later.postorder⟩ := by
  induction front generalizing visited with
  | nil => simp [ofList_nil]
  | cons v front ih =>
    rw [List.cons_append, ofList_cons v (front ++ back), ofList_cons v front]
    simp only [ih, List.append_assoc]

section Groups

variable {previous : Fin n → List (Fin n)} {visited : Finset (Fin n)} {root : Fin n}

theorem groups_cons_of_mem (h : root ∈ visited) (roots : List (Fin n)) :
    groups previous visited (root :: roots) = groups previous visited roots :=
  if_pos h

theorem groups_cons_of_notMem (h : root ∉ visited) (roots : List (Fin n)) :
    groups previous visited (root :: roots) =
      (ofList previous visited [root]).preorder ::
        groups previous (ofList previous visited [root]).visited roots :=
  if_neg h

end Groups

section Rename

variable {rename : Fin n → Fin m} {q : Fin m} (injective : Function.Injective rename)
  (new : ∀ v, rename v ≠ q) {next : Fin n → List (Fin n)} {next' : Fin m → List (Fin m)}
  (ext : Extends rename q next next')

include injective in
theorem mem_image_union_iff {others : Finset (Fin m)} (apart : ∀ v, rename v ∉ others)
    (visited : Finset (Fin n)) (v : Fin n) :
    rename v ∈ visited.image rename ∪ others ↔ v ∈ visited := by
  rw [Finset.mem_union, or_iff_left (apart v), injective.mem_finset_image]

include new in
theorem notMem_image (visited : Finset (Fin n)) : q ∉ visited.image rename := by
  rw [Finset.mem_image]
  rintro ⟨v, -, same⟩
  exact new v same

include new ext in
/-- The isolated vertex is passed in one step. -/
theorem ofList_cons_isolated (visited : Finset (Fin n)) (vertices : List (Fin m)) :
    ofList next' (visited.image rename) (q :: vertices) =
      let later := ofList next' (visited.image rename ∪ {q}) vertices
      ⟨later.visited, q :: later.preorder, q :: later.postorder⟩ := by
  rw [ofList_cons_of_notMem (notMem_image new visited), ext.isolated, ofList_nil,
    Finset.insert_eq, Finset.union_comm]
  rfl

include injective ext

/-- Visits go the same way under other names, whatever other vertices were visited before. -/
theorem ofList_map (others : Finset (Fin m)) (apart : ∀ v, rename v ∉ others)
    (visited : Finset (Fin n)) (vertices : List (Fin n)) :
    ofList next' (visited.image rename ∪ others) (vertices.map rename) =
      (ofList next visited vertices).renamed rename others := by
  have marked := mem_image_union_iff injective apart
  induction visited, vertices using Visit.extending.induct next with
  | case1 visited => rw [List.map_nil, ofList_nil, ofList_nil]; rfl
  | case2 visited v vertices seen ih =>
    rw [List.map_cons, ofList_cons_of_mem ((marked visited v).2 seen), ofList_cons_of_mem seen, ih]
  | case3 visited v vertices unseen inner ihInner ihLater =>
    have recursive : inner.val = ofList next (insert v visited) (next v) := rfl
    rw [recursive] at ihLater
    rw [List.map_cons, ofList_cons_of_notMem (mt (marked visited v).1 unseen),
      ofList_cons_of_notMem unseen, ext.successors, ← Finset.insert_union, ← Finset.image_insert,
      ihInner]
    simp only [renamed, ihLater, List.map_append, List.map_cons]

theorem ofList_map_image (visited : Finset (Fin n)) (vertices : List (Fin n)) :
    ofList next' (visited.image rename) (vertices.map rename) =
      (ofList next visited vertices).renamed rename ∅ := by
  have run := ofList_map injective ext ∅ (fun v => Finset.notMem_empty _) visited vertices
  rwa [Finset.union_empty] at run

theorem groups_map (others : Finset (Fin m)) (apart : ∀ v, rename v ∉ others)
    (visited : Finset (Fin n)) (roots : List (Fin n)) :
    groups next' (visited.image rename ∪ others) (roots.map rename) =
      (groups next visited roots).map (List.map rename) := by
  induction roots generalizing visited with
  | nil => rfl
  | cons root roots ih =>
    have marked := mem_image_union_iff injective apart visited root
    have first : ofList next' (visited.image rename ∪ others) [rename root] = _ :=
      ofList_map injective ext others apart visited [root]
    rw [List.map_cons]
    by_cases seen : root ∈ visited
    · rw [groups_cons_of_mem (marked.2 seen), groups_cons_of_mem seen, ih]
    · rw [groups_cons_of_notMem (mt marked.1 seen), groups_cons_of_notMem seen, first,
        List.map_cons, ← ih]
      rfl

include new

/-- All vertices are left in the same order, and the isolated one somewhere among them. -/
theorem exists_postorder_all {front back : List (Fin n)}
    (vertices : List.finRange n = front ++ back)
    (vertices' : List.finRange m = front.map rename ++ q :: back.map rename) :
    ∃ first later, (all next).postorder = first ++ later ∧
      (all next').postorder = first.map rename ++ q :: later.map rename := by
  have start := ofList_map_image injective ext ∅ front
  have rest := ofList_map injective ext {q} (fun v => Finset.notMem_singleton.2 (new v))
    (ofList next ∅ front).visited back
  rw [Finset.image_empty] at start
  refine ⟨(ofList next ∅ front).postorder,
    (ofList next (ofList next ∅ front).visited back).postorder, ?_, ?_⟩
  · rw [all, vertices, ofList_append]
  · rw [all, vertices', ofList_append, start]
    simp only [renamed, Finset.union_empty]
    rw [ofList_cons_isolated new ext, rest]
    rfl

/-- The groups are the same, and the isolated vertex is a group among them. -/
theorem exists_groups_insert (visited : Finset (Fin n)) (front back : List (Fin n)) :
    ∃ first later, groups next visited (front ++ back) = first ++ later ∧
      groups next' (visited.image rename) (front.map rename ++ q :: back.map rename) =
        first.map (List.map rename) ++ [q] :: later.map (List.map rename) := by
  induction front generalizing visited with
  | nil =>
    have alone : ofList next' (visited.image rename) [q] =
        ⟨visited.image rename ∪ {q}, [q], [q]⟩ := by
      rw [ofList_cons_isolated new ext, ofList_nil]
    have rest := groups_map injective ext {q} (fun v => Finset.notMem_singleton.2 (new v)) visited
      back
    refine ⟨[], groups next visited back, rfl, ?_⟩
    rw [List.map_nil, List.nil_append, groups_cons_of_notMem (notMem_image new visited), alone,
      rest]
    rfl
  | cons root front ih =>
    have marked : rename root ∈ visited.image rename ↔ root ∈ visited := injective.mem_finset_image
    have first : ofList next' (visited.image rename) [rename root] = _ :=
      ofList_map_image injective ext visited [root]
    rw [List.cons_append, List.map_cons, List.cons_append]
    by_cases seen : root ∈ visited
    · rw [groups_cons_of_mem seen, groups_cons_of_mem (marked.2 seen)]
      exact ih visited
    · obtain ⟨before, after, same, same'⟩ := ih (ofList next visited [root]).visited
      refine ⟨(ofList next visited [root]).preorder :: before, after, ?_, ?_⟩
      · rw [groups_cons_of_notMem seen, same, List.cons_append]
      · rw [groups_cons_of_notMem (mt marked.1 seen), first]
        simp only [renamed, Finset.union_empty]
        rw [same', List.map_cons, List.cons_append]

end Rename

end Visit

/-! ## Groups of vertices -/

namespace Groups

variable {n m : Nat}

/-- The components of a graph with an isolated vertex more are the same ones under their new names,
with the isolated vertex as a component between two of them. -/
theorem exists_components_insert {rename : Fin n → Fin m} {q : Fin m}
    (injective : Function.Injective rename) (new : ∀ v, rename v ≠ q) {front back : List (Fin n)}
    (vertices : List.finRange n = front ++ back)
    (vertices' : List.finRange m = front.map rename ++ q :: back.map rename)
    {next previous : Successors n} {next' previous' : Successors m}
    (ext : Visit.Extends rename q next.get next'.get)
    (ext' : Visit.Extends rename q previous.get previous'.get) :
    ∃ before after, components next previous = before ++ after ∧
      components next' previous' =
        before.map (List.map rename) ++ [q] :: after.map (List.map rename) := by
  obtain ⟨first, later, order, order'⟩ :=
    Visit.exists_postorder_all injective new ext vertices vertices'
  obtain ⟨old, young, same, same'⟩ :=
    Visit.exists_groups_insert injective new ext' ∅ later.reverse first.reverse
  have roots : (Visit.all next.get).postorder.reverse = later.reverse ++ first.reverse := by
    rw [order, List.reverse_append]
  have roots' : (Visit.all next'.get).postorder.reverse =
      later.reverse.map rename ++ q :: first.reverse.map rename := by
    rw [order']
    simp
  rw [Finset.image_empty] at same'
  refine ⟨young.reverse, old.reverse, ?_, ?_⟩
  · rw [components, floodAll_eq_groups, finishOrder_eq_postorder, roots, same, List.reverse_append]
  · rw [components, floodAll_eq_groups, finishOrder_eq_postorder, roots', same']
    simp

end Groups

/-! ## Linked records -/

/-- The record with links to shifted positions. -/
def ClassRecord.shifted (p : Nat) (record : ClassRecord) : ClassRecord :=
  { record with
    outgoing := record.outgoing.map (shift p)
    incoming := record.incoming.map (shift p) }

namespace Links

/-- A record that has a class path of its own, which no record refers to, and refers to none. -/
structure Unrelated (records : Array ClassRecord) (stranger : ClassRecord) : Prop where
  fresh : ∀ record ∈ records, record.classPath ≠ stranger.classPath
  unreferenced : ∀ record ∈ records, stranger.classPath ∉ record.references
  unreferring : ∀ record ∈ records, record.classPath ∉ stranger.references

theorem getElem?_connect_eq (records : Array ClassRecord) (i : Nat) :
    (connect records)[i]? = records[i]?.map fun record =>
      { record with
        outgoing := resolved (definitions records) i record.references
        incoming := sourcesBelow (connect records) records.size i } := by
  nth_rewrite 1 [connect_eq_mapIdx]
  rw [Array.getElem?_mapIdx]

/-- Linked records with one more among them, which no link leads to or from. -/
structure Grows (linked : Array ClassRecord) (p : Nat) (loner : ClassRecord)
    (grown : Array ClassRecord) : Prop where
  le : p ≤ linked.size
  size : grown.size = linked.size + 1
  getElem?_shift : ∀ i, grown[shift p i]? = linked[i]?.map (ClassRecord.shifted p)
  getElem?_new : grown[p]? = some loner
  outgoing : loner.outgoing = []
  incoming : loner.incoming = []

section Insert

variable {records : Array ClassRecord} {stranger : ClassRecord} {p : Nat} (h : p ≤ records.size)

/-- The class paths other than the new one have their last records where these went. -/
theorem isLast_insertIdx {path : Text} (other : path ≠ stranger.classPath) {j : Nat} :
    IsLast (records.insertIdx p stranger h) path j ↔
      ∃ i, IsLast records path i ∧ shift p i = j := by
  have away : ∀ {k}, (records.insertIdx p stranger h)[k]?.map ClassRecord.classPath = some path →
      k ≠ p := by
    rintro k here rfl
    rw [Array.getElem?_insertIdx_self, Option.map_some, Option.some_inj] at here
    exact other here.symm
  constructor
  · rintro ⟨here, latest⟩
    obtain ⟨i, rfl⟩ := exists_shift_of_ne (away here)
    rw [getElem?_insertIdx_shift] at here
    refine ⟨i, ⟨here, fun k hk => ?_⟩, rfl⟩
    rw [← getElem?_insertIdx_shift h] at hk
    exact (shift_le_shift_iff).1 (latest _ hk)
  · rintro ⟨i, ⟨here, latest⟩, rfl⟩
    refine ⟨by rwa [getElem?_insertIdx_shift], fun k hk => ?_⟩
    obtain ⟨l, rfl⟩ := exists_shift_of_ne (away hk)
    rw [getElem?_insertIdx_shift] at hk
    exact (shift_le_shift_iff).2 (latest l hk)

theorem getElem?_definitions_insertIdx {path : Text} (other : path ≠ stranger.classPath) :
    (definitions (records.insertIdx p stranger h))[path]? =
      (definitions records)[path]?.map (shift p) := by
  apply Option.ext
  intro j
  rw [getElem?_definitions, isLast_insertIdx h other, Option.map_eq_some_iff]
  simp only [getElem?_definitions]

/-- References resolve to the same records, where these went. -/
theorem resolved_insertIdx (i : Nat) {references : List Text}
    (unreferenced : stranger.classPath ∉ references) :
    resolved (definitions (records.insertIdx p stranger h)) (shift p i) references =
      (resolved (definitions records) i references).map (shift p) := by
  have known : references.filterMap ((definitions (records.insertIdx p stranger h))[·]?) =
      (references.filterMap ((definitions records)[·]?)).map (shift p) := by
    rw [List.map_filterMap]
    refine List.filterMap_congr fun path mem => ?_
    exact getElem?_definitions_insertIdx h fun same => unreferenced (same ▸ mem)
  rw [resolved, known, List.filter_map, resolved]
  congr 2
  funext j
  rw [Function.comp_apply, bne, (shift_injective p).beq_eq]
  rfl

/-- The references of the new record lead to no other one. -/
theorem resolved_stranger (unrelated : Unrelated records stranger) :
    resolved (definitions (records.insertIdx p stranger h)) p stranger.references = [] := by
  refine List.filter_eq_nil_iff.2 fun j mem => ?_
  obtain ⟨path, referred, known⟩ := List.mem_filterMap.1 mem
  obtain ⟨record, here, same⟩ := exists_of_definitions known
  have itself : j = p := by
    by_contra away
    obtain ⟨i, rfl⟩ := exists_shift_of_ne away
    rw [getElem?_insertIdx_shift] at here
    exact unrelated.unreferring record (Array.mem_of_getElem? here) (same ▸ referred)
  simp [itself]

variable (unrelated : Unrelated records stranger)

include unrelated

theorem outgoingAt_connect_shift (i : Nat) :
    outgoingAt (connect (records.insertIdx p stranger h)) (shift p i) =
      (outgoingAt (connect records) i).map (shift p) := by
  rw [outgoingAt_connect, outgoingAt_connect, outgoingAt_linked, outgoingAt_linked,
    getElem?_insertIdx_shift]
  cases here : records[i]? with
  | none => rfl
  | some record =>
    exact resolved_insertIdx h i (unrelated.unreferenced record (Array.mem_of_getElem? here))

theorem outgoingAt_connect_stranger :
    outgoingAt (connect (records.insertIdx p stranger h)) p = [] := by
  rw [outgoingAt_connect, outgoingAt_linked, Array.getElem?_insertIdx_self]
  exact resolved_stranger h unrelated

/-- The sources of a record are the same, where they went. -/
theorem sourcesBelow_shift (j : Nat) :
    sourcesBelow (connect (records.insertIdx p stranger h)) (records.size + 1) (shift p j) =
      (sourcesBelow (connect records) records.size j).map (shift p) := by
  have source : ∀ i, List.replicate ((outgoingAt (connect (records.insertIdx p stranger h))
      (shift p i)).count (shift p j)) (shift p i) =
        (List.replicate ((outgoingAt (connect records) i).count j) i).map (shift p) := by
    intro i
    rw [outgoingAt_connect_shift h unrelated,
      List.count_map_of_injective _ _ (shift_injective p), List.map_replicate]
  simp only [sourcesBelow, range_succ_eq h, List.flatMap_append, List.flatMap_cons,
    List.flatMap_map, source, outgoingAt_connect_stranger h unrelated]
  rw [List.count_nil, List.replicate_zero, List.nil_append, ← List.flatMap_append,
    List.take_append_drop, List.map_flatMap]

theorem sourcesBelow_stranger :
    sourcesBelow (connect (records.insertIdx p stranger h)) (records.size + 1) p = [] := by
  refine List.flatMap_eq_nil_iff.2 fun k _ => ?_
  have never : p ∉ outgoingAt (connect (records.insertIdx p stranger h)) k := by
    by_cases itself : k = p
    · rw [itself, outgoingAt_connect_stranger h unrelated]
      exact List.not_mem_nil
    · obtain ⟨i, rfl⟩ := exists_shift_of_ne itself
      rw [outgoingAt_connect_shift h unrelated, List.mem_map]
      rintro ⟨j, -, same⟩
      exact shift_ne p j same
  rw [List.count_eq_zero.2 never, List.replicate_zero]

/-- A new record that has nothing to do with the others moves them and their links. -/
theorem grows_connect :
    Grows (connect records) p { stranger with outgoing := [], incoming := [] }
      (connect (records.insertIdx p stranger h)) where
  le := by rwa [size_connect]
  size := by rw [size_connect, size_connect, Array.size_insertIdx]
  outgoing := rfl
  incoming := rfl
  getElem?_shift i := by
    rw [getElem?_connect_eq, getElem?_insertIdx_shift, getElem?_connect_eq, Array.size_insertIdx,
      Option.map_map]
    refine Option.map_congr fun record here => ?_
    rw [sourcesBelow_shift h unrelated, resolved_insertIdx h i
      (unrelated.unreferenced record (Array.mem_of_getElem? here))]
    rfl
  getElem?_new := by
    rw [getElem?_connect_eq, Array.getElem?_insertIdx_self, Array.size_insertIdx,
      Option.map_some, sourcesBelow_stranger h unrelated, resolved_stranger h unrelated]

end Insert

end Links

/-! ## Groups of records -/

/-- The group with its members at shifted positions. -/
def Group.shifted (p : Nat) (group : Group) : Group := ⟨group.members.map (shift p)⟩

namespace Groups

section Grows

variable {linked grown : Array ClassRecord} {loner : ClassRecord} {p : Nat}
  (grows : Links.Grows linked p loner grown)

include grows

theorem extends_successors {lists : ClassRecord → List Nat}
    (shifts : ∀ record, lists (record.shifted p) = (lists record).map (shift p))
    (alone : lists loner = []) :
    Visit.Extends (rename grows.le grows.size) (place grows.le grows.size)
      (successors linked lists).get (successors grown lists).get where
  successors v := by
    have old := Array.getElem?_eq_getElem v.isLt
    have here : grown[(rename grows.le grows.size v).val]? = some (linked[v].shifted p) := by
      rw [rename, grows.getElem?_shift, old]
      rfl
    rw [get_successors here, get_successors old, shifts]
    exact bounded_map_shift grows.le grows.size _
  isolated := by
    have here : grown[(place grows.le grows.size).val]? = some loner := grows.getElem?_new
    rw [get_successors here, alone]
    rfl

/-- The groups of the records are the same, and the new record is a group between two of them. -/
theorem exists_ofLinked_grown :
    ∃ before after, ofLinked linked = before ++ after ∧
      ofLinked grown = before.map (Group.shifted p) ++ ⟨[p]⟩ :: after.map (Group.shifted p) := by
  obtain ⟨before, after, same, same'⟩ := exists_components_insert
    (rename_injective grows.le grows.size) (rename_ne_place grows.le grows.size)
    (List.take_append_drop p _).symm (finRange_eq grows.le grows.size)
    (extends_successors grows (fun _ => rfl) grows.outgoing)
    (extends_successors grows (fun _ => rfl) grows.incoming)
  refine ⟨before.map fun members => ⟨members.map Fin.val⟩,
    after.map fun members => ⟨members.map Fin.val⟩, ?_, ?_⟩
  · rw [ofLinked, same, List.map_append]
  · have moved : (fun members : List (Fin grown.size) => (⟨members.map Fin.val⟩ : Group)) ∘
        List.map (rename grows.le grows.size) =
          Group.shifted p ∘ fun members => ⟨members.map Fin.val⟩ := by
      funext members
      simp only [Function.comp_apply, Group.shifted, List.map_map]
      rfl
    rw [ofLinked, same', List.map_append, List.map_cons, List.map_map, List.map_map, moved,
      List.map_map, List.map_map]
    rfl

end Grows

end Groups

/-! ## Reports -/

namespace Report

/-- What a report shows of a record. -/
def shown (record : ClassRecord) : Text × List Nat := (record.className, record.outgoing)

theorem text_congr {records others : Array ClassRecord}
    (h : records.map shown = others.map shown) : Line.text records = Line.text others := by
  have at_i : ∀ i : Nat, records[i]?.map shown = others[i]?.map shown := by
    intro i
    rw [← Array.getElem?_map, h, Array.getElem?_map]
  have name : ∀ arena : Array ClassRecord,
      nameAt arena = fun i => (arena[i]?.map shown).elim [] Prod.fst := by
    intro arena
    funext i
    rw [nameAt]
    cases arena[i]? <;> rfl
  have targets : ∀ (arena : Array ClassRecord) (i : Nat),
      targetNamesAt arena i = ((arena[i]?.map shown).elim [] Prod.snd).map (nameAt arena) := by
    intro arena i
    rw [targetNamesAt]
    cases arena[i]? <;> rfl
  have names : nameAt records = nameAt others := by
    rw [name, name]
    simp only [at_i]
  funext line
  cases line with
  | header group => rw [Line.text, Line.text, names]
  | subject group i => rw [Line.text, Line.text, targets, targets, names, at_i]

theorem text_markAll (records : Array ClassRecord) (groups : List Group) :
    Line.text (Groups.markAll records groups) = Line.text records :=
  text_congr (Groups.map_markAll (fun _ _ => rfl) records groups)

/-- The line about the same records at shifted positions. -/
def Line.shifted (p : Nat) : Line → Line
  | header group => header (group.shifted p)
  | subject group i => subject (group.shifted p) (shift p i)

theorem isCyclic_shifted (p : Nat) (group : Group) :
    (group.shifted p).isCyclic = group.isCyclic := by
  simp [Group.shifted, Group.isCyclic]

theorem outline_shifted (p : Nat) (groups : List Group) :
    outline (groups.map (Group.shifted p)) = (outline groups).map (Line.shifted p) := by
  have each : ∀ group : Group,
      groupOutline (group.shifted p) = (groupOutline group).map (Line.shifted p) := by
    intro group
    have members : (group.shifted p).members.map (Line.subject (group.shifted p)) =
        (group.members.map (Line.subject group)).map (Line.shifted p) := by
      rw [Group.shifted, List.map_map, List.map_map]
      rfl
    rw [groupOutline, groupOutline, isCyclic_shifted, members, List.map_append]
    split_ifs <;> rfl
  simp only [outline, List.flatMap_map, each, List.map_flatMap]

theorem outline_append (groups more : List Group) :
    outline (groups ++ more) = outline groups ++ outline more :=
  List.flatMap_append

section Grows

variable {linked grown : Array ClassRecord} {loner : ClassRecord} {p : Nat}
  (grows : Links.Grows linked p loner grown)

include grows

theorem nameAt_shift (i : Nat) : nameAt grown (shift p i) = nameAt linked i := by
  rw [nameAt, nameAt, grows.getElem?_shift]
  cases linked[i]? <;> rfl

theorem targetNamesAt_shift (i : Nat) :
    targetNamesAt grown (shift p i) = targetNamesAt linked i := by
  rw [targetNamesAt, targetNamesAt, grows.getElem?_shift]
  cases linked[i]? with
  | none => rfl
  | some record =>
    change (record.outgoing.map (shift p)).map (nameAt grown) = record.outgoing.map (nameAt linked)
    rw [List.map_map]
    exact List.map_congr_left fun j _ => nameAt_shift grows j

/-- Shifted lines have the same text. -/
theorem text_shifted (line : Line) : (line.shifted p).text grown = line.text linked := by
  cases line with
  | header group =>
    have names : (group.members.map (shift p)).map (nameAt grown) =
        group.members.map (nameAt linked) := by
      rw [List.map_map]
      exact List.map_congr_left fun i _ => nameAt_shift grows i
    rw [Line.shifted, Line.text, Line.text, Group.shifted, names]
  | subject group i =>
    rw [Line.shifted, Line.text, Line.text, isCyclic_shifted, nameAt_shift grows,
      targetNamesAt_shift grows]

theorem map_text_outline_shifted (groups : List Group) :
    (outline (groups.map (Group.shifted p))).map (Line.text grown) =
      (outline groups).map (Line.text linked) := by
  rw [outline_shifted, List.map_map]
  exact List.map_congr_left fun line _ => text_shifted grows line

/-- The line of the new record. -/
theorem text_new : (Line.subject ⟨[p]⟩ p).text grown = loner.className ++ " -> []" := by
  have name : nameAt grown p = loner.className := by
    rw [nameAt, grows.getElem?_new, Option.elim_some]
  have targets : targetNamesAt grown p = [] := by
    rw [targetNamesAt, grows.getElem?_new, Option.elim_some, grows.outgoing, List.map_nil]
  rw [Line.text, name, targets, List.append_assoc]
  rfl

/-- The lines of the groups with the new one among them. -/
theorem map_text_outline_grown (before after : List Group) :
    (outline (before.map (Group.shifted p) ++ ⟨[p]⟩ :: after.map (Group.shifted p))).map
        (Line.text grown) =
      (outline before).map (Line.text linked) ++
        (loner.className ++ " -> []") :: (outline after).map (Line.text linked) := by
  rw [outline_append, List.map_append, map_text_outline_shifted grows,
    ← map_text_outline_shifted grows after, ← text_new grows]
  rfl

end Grows

/-- A record that is put among others it has nothing to do with gets a line of its own in the
report, between the lines of two groups; all other groups and lines stay. -/
theorem lines_insertIdx {records : Array ClassRecord} {stranger : ClassRecord} {p : Nat}
    (h : p ≤ records.size) (unrelated : Links.Unrelated records stranger) :
    (∀ i, (records.insertIdx p stranger h)[shift p i]? = records[i]?) ∧
    ∃ grouped regrouped before after top bottom,
      Groups.find (Links.connect records) = .ok (grouped, before ++ after) ∧
      Groups.find (Links.connect (records.insertIdx p stranger h)) =
        .ok (regrouped, before.map (Group.shifted p) ++ ⟨[p]⟩ :: after.map (Group.shifted p)) ∧
      lines grouped (before ++ after) = .ok (top ++ bottom) ∧
      lines grouped before = .ok top ∧
      lines regrouped (before.map (Group.shifted p) ++ ⟨[p]⟩ :: after.map (Group.shifted p)) =
        .ok (top ++ (stranger.className ++ " -> []") :: bottom) := by
  have mirrored := Links.mirrored_connect records
  have mirrored' := Links.mirrored_connect (records.insertIdx p stranger h)
  have grows := Links.grows_connect h unrelated
  obtain ⟨before, after, groups, groups'⟩ := Groups.exists_ofLinked_grown grows
  have found := Groups.find_of_mirrored mirrored
  have found' := Groups.find_of_mirrored mirrored'
  have front := lines_of_subset mirrored (groups ▸ List.subset_append_left before after)
  have report := lines_ofLinked mirrored
  have report' := lines_ofLinked mirrored'
  simp only [text_markAll] at front report report'
  rw [groups] at found front report
  rw [groups'] at found' report'
  rw [outline_append, List.map_append] at report
  rw [map_text_outline_grown grows] at report'
  exact ⟨getElem?_insertIdx_shift h, _, _, before, after, _, _, found, found', report, front,
    report'⟩

/-- Two records that refer to each other. -/
def mutualRecords : Array ClassRecord :=
  #[Analysis.mutualRecord "A" "B", Analysis.mutualRecord "B" "A"]

/-- A record that refers to a class of another directory. -/
def stranger : ClassRecord := Analysis.mutualRecord "Z" "java/lang/Object"

theorem lines_mutualRecords {grouped : Array ClassRecord} {groups : List Group}
    (found : Groups.find (Links.connect mutualRecords) = .ok (grouped, groups)) :
    lines grouped groups =
      .ok [("[A, B]" : Text), ("    A -> [B]" : Text), ("    B -> [A]" : Text)] := by
  have linked : Links.connect mutualRecords = Analysis.mutualLinked := Analysis.connect_mutual
  have result : Groups.ofLinked Analysis.mutualLinked = [⟨[0, 1]⟩] := by cbv
  rw [Groups.find_of_mirrored (Links.mirrored_connect mutualRecords), linked, result] at found
  cases found
  decide +kernel

theorem lines_insertIdx_mutualRecords :
    Links.Unrelated mutualRecords stranger ∧
      ∃ regrouped groups, ∃ top bottom : List Text,
        top ++ bottom = [("[A, B]" : Text), ("    A -> [B]" : Text), ("    B -> [A]" : Text)] ∧
        Groups.find (Links.connect (mutualRecords.insertIdx 1 stranger)) =
          .ok (regrouped, groups) ∧
        lines regrouped groups = .ok (top ++ ("Z -> []" : Text) :: bottom) := by
  have unrelated : Links.Unrelated mutualRecords stranger :=
    ⟨by decide +kernel, by decide +kernel, by decide +kernel⟩
  obtain ⟨-, grouped, regrouped, before, after, top, bottom, found, found', report, -, report'⟩ :=
    lines_insertIdx (p := 1) (by decide) unrelated
  rw [lines_mutualRecords found] at report
  exact ⟨unrelated, regrouped, _, top, bottom, (Except.ok.inj report).symm, found', report'⟩

end Report

end ClassOrder
