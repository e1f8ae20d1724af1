import ClassOrder.Proofs.Groups
import Mathlib

/-!
# Depth-first search by recursion

The textbook formulation: to visit a new vertex is to mark it and then to visit its successors in
turn. A search with a stack of its own comes to vertices and is done with them in the same order
(`explore_ofVisited`), so the finish order is a reversed postorder and the groups are preorders.
-/

namespace ClassOrder

/-- What visiting some vertices does: the vertices that are visited in the end, and those that were
new, in the order of coming to them and in the order of being done with them. -/
structure Visit (n : Nat) where
  visited : Finset (Fin n)
  preorder : List (Fin n)
  postorder : List (Fin n)

namespace Visit

variable {n : Nat}

theorem card_compl_insert_lt {visited : Finset (Fin n)} {v : Fin n} (h : v ∉ visited) :
    (insert v visited)ᶜ.card < visitedᶜ.card :=
  Finset.card_lt_card (Finset.compl_ssubset_compl.2 (Finset.ssubset_insert h))

/-- The visit to the vertices of a list in turn, with the proof that no mark is lost. -/
def extending (next : Fin n → List (Fin n)) (visited : Finset (Fin n)) :
    List (Fin n) → { result : Visit n // visited ⊆ result.visited }
  | [] => ⟨⟨visited, [], []⟩, Finset.Subset.refl visited⟩
  | v :: vertices =>
    if _marked : v ∈ visited then extending next visited vertices
    else
      let inner := extending next (insert v visited) (next v)
      let later := extending next inner.val.visited vertices
      ⟨⟨later.val.visited, v :: inner.val.preorder ++ later.val.preorder,
          inner.val.postorder ++ v :: later.val.postorder⟩,
        (Finset.subset_insert v visited).trans (inner.property.trans later.property)⟩
termination_by vertices => (visitedᶜ.card, vertices.length)
decreasing_by
  · exact .right _ (Nat.lt_succ_self _)
  · exact .left _ _ (card_compl_insert_lt _marked)
  · refine .left _ _ (Nat.lt_of_le_of_lt ?_ (card_compl_insert_lt _marked))
    exact Finset.card_le_card (Finset.compl_subset_compl.2 inner.property)

/-- The visit to the vertices of a list in turn. -/
def ofList (next : Fin n → List (Fin n)) (visited : Finset (Fin n)) (vertices : List (Fin n)) :
    Visit n :=
  (extending next visited vertices).val

/-- The visit to all vertices in turn. -/
def all (next : Fin n → List (Fin n)) : Visit n := ofList next ∅ (List.finRange n)

/-- For each root that is not visited when its turn comes, the vertices that it newly leads to. -/
def groups (previous : Fin n → List (Fin n)) (visited : Finset (Fin n)) :
    List (Fin n) → List (List (Fin n))
  | [] => []
  | root :: roots =>
    if root ∈ visited then groups previous visited roots
    else
      let result := ofList previous visited [root]
      result.preorder :: groups previous result.visited roots

section Equations

variable {next : Fin n → List (Fin n)} {visited : Finset (Fin n)} {v : Fin n}

theorem ofList_nil : ofList next visited [] = ⟨visited, [], []⟩ := by
  rw [ofList, extending]

theorem ofList_cons_of_mem (h : v ∈ visited) (vertices : List (Fin n)) :
    ofList next visited (v :: vertices) = ofList next visited vertices := by
  rw [ofList, extending, dif_pos h, ofList]

theorem ofList_cons_of_notMem (h : v ∉ visited) (vertices : List (Fin n)) :
    ofList next visited (v :: vertices) =
      let inner := ofList next (insert v visited) (next v)
      let later := ofList next inner.visited vertices
      ⟨later.visited, v :: inner.preorder ++ later.preorder,
        inner.postorder ++ v :: later.postorder⟩ := by
  rw [ofList, extending, dif_neg h]
  rfl

theorem ofList_cons (v : Fin n) (vertices : List (Fin n)) :
    ofList next visited (v :: vertices) =
      let first := ofList next visited [v]
      let later := ofList next first.visited vertices
      ⟨later.visited, first.preorder ++ later.preorder, first.postorder ++ later.postorder⟩ := by
  by_cases h : v ∈ visited
  · simp only [ofList_cons_of_mem h, ofList_nil, List.nil_append]
  · simp [ofList_cons_of_notMem h, ofList_nil]

end Equations

end Visit

namespace Search

variable {n : Nat} (next : Successors n)

/-- The search that has seen, entered and left some vertices. -/
def ofVisited (visited : Finset (Fin n)) (entered finished : List (Fin n)) : Search n :=
  ⟨Vector.ofFn fun v => decide (v ∈ visited), entered, finished⟩

section OfVisited

variable (visited : Finset (Fin n)) (entered finished : List (Fin n))

theorem start_eq_ofVisited : (start : Search n) = ofVisited ∅ [] [] := by
  simp [start, ofVisited, Vector.ext_iff]

theorem isSeen_ofVisited (v : Fin n) :
    (ofVisited visited entered finished).isSeen v ↔ v ∈ visited := by
  simp [isSeen, ofVisited]

theorem enter_ofVisited (v : Fin n) :
    (ofVisited visited entered finished).enter v =
      ofVisited (insert v visited) (v :: entered) finished := by
  have seen : (Vector.ofFn fun u => decide (u ∈ visited)).set v true =
      Vector.ofFn fun u => decide (u ∈ insert v visited) := by
    ext i hi
    rw [Vector.getElem_set]
    split_ifs with same
    · simp [← same]
    · simp [Fin.ext_iff, Ne.symm same]
  rw [enter, ofVisited, seen]
  rfl

end OfVisited

/-- A search works off the rest of a frame as the recursion does and then leaves its vertex. -/
theorem explore_ofVisited (visited : Finset (Fin n)) (entered finished : List (Fin n)) (u : Fin n)
    (vertices : List (Fin n)) (below : List (Frame n)) :
    explore next (ofVisited visited entered finished) ((u, vertices) :: below) =
      let result := Visit.ofList next.get visited vertices
      explore next (ofVisited result.visited (result.preorder.reverse ++ entered)
        (u :: (result.postorder.reverse ++ finished))) below := by
  unfold Visit.ofList
  fun_induction Visit.extending next.get visited vertices
    generalizing u entered finished below with
  | case1 visited => rw [explore]; rfl
  | case2 visited v vertices seen ih =>
    rw [explore, dif_pos ((isSeen_ofVisited ..).2 seen), ih]
  | case3 visited v vertices new inner later ihInner ihLater =>
    rw [explore, dif_neg (mt (isSeen_ofVisited ..).1 new), enter_ofVisited,
      Successors.getElem_eq_get, ihInner]
    simp only
    rw [ihLater]
    simp only [List.reverse_append, List.reverse_cons]
    simp [inner, later]

theorem visit_ofVisited (visited : Finset (Fin n)) (entered finished : List (Fin n)) (v : Fin n) :
    visit next (ofVisited visited entered finished) v =
      let result := Visit.ofList next.get visited [v]
      ofVisited result.visited (result.preorder.reverse ++ entered)
        (result.postorder.reverse ++ finished) := by
  unfold visit
  split_ifs with seen
  · rw [isSeen_ofVisited] at seen
    rw [Visit.ofList_cons_of_mem seen, Visit.ofList_nil]
    rfl
  · rw [isSeen_ofVisited] at seen
    rw [enter_ofVisited, Successors.getElem_eq_get, explore_ofVisited, explore,
      Visit.ofList_cons_of_notMem seen]
    simp [Visit.ofList_nil]

theorem foldl_visit_ofVisited (visited : Finset (Fin n)) (entered finished roots : List (Fin n)) :
    roots.foldl (visit next) (ofVisited visited entered finished) =
      let result := Visit.ofList next.get visited roots
      ofVisited result.visited (result.preorder.reverse ++ entered)
        (result.postorder.reverse ++ finished) := by
  induction roots generalizing visited entered finished with
  | nil => simp [Visit.ofList_nil]
  | cons root roots ih =>
    rw [List.foldl_cons, visit_ofVisited, ih, Visit.ofList_cons root roots]
    simp

end Search

namespace Groups

variable {n : Nat}

theorem finishOrder_eq_postorder (next : Successors n) :
    finishOrder next = (Visit.all next.get).postorder.reverse := by
  rw [finishOrder, Search.all, Search.visitAll, Search.start_eq_ofVisited,
    Search.foldl_visit_ofVisited]
  simp [Search.ofVisited, Visit.all]

theorem foldl_flood_ofVisited (previous : Successors n) (visited : Finset (Fin n))
    (entered finished : List (Fin n)) (done : List (List (Fin n))) (roots : List (Fin n)) :
    (roots.foldl (flood previous) ⟨.ofVisited visited entered finished, done⟩).groups =
      (Visit.groups previous.get visited roots).reverse ++ done := by
  induction roots generalizing visited entered finished done with
  | nil => rfl
  | cons root roots ih =>
    rw [List.foldl_cons, flood, Visit.groups]
    by_cases seen : root ∈ visited
    · rw [if_pos ((Search.isSeen_ofVisited ..).2 seen), if_pos seen, ih]
    · have recount : { Search.ofVisited visited entered finished with entered := [] } =
          Search.ofVisited visited [] finished := rfl
      rw [if_neg (mt (Search.isSeen_ofVisited ..).1 seen), if_neg seen, recount,
        Search.visit_ofVisited, ih]
      simp [Search.ofVisited]

theorem floodAll_eq_groups (previous : Successors n) (roots : List (Fin n)) :
    floodAll previous roots = (Visit.groups previous.get ∅ roots).reverse := by
  rw [floodAll, Search.start_eq_ofVisited, foldl_flood_ofVisited, List.append_nil]

/-! ## Records as vertices -/

theorem map_val_bounded {positions : List Nat} (h : ∀ i ∈ positions, i < n) :
    (bounded n positions).map Fin.val = positions := by
  induction positions with
  | nil => rfl
  | cons i positions ih =>
    obtain ⟨first, later⟩ := List.forall_mem_cons.1 h
    simp only [bounded, List.filterMap_cons, dif_pos first, List.map_cons]
    rw [← bounded, ih later]

theorem getElem?_map_eq_successors {records : Array ClassRecord} {lists : ClassRecord → List Nat}
    (h : inRange records lists) (v : Fin records.size) :
    records[v.val]?.map lists = some (((successors records lists).get v).map Fin.val) := by
  have at_v := Array.getElem?_eq_getElem v.isLt
  have inside := inRange_iff.1 h v _ at_v
  rw [at_v, get_successors at_v, map_val_bounded inside]
  rfl

/-- The two searches give what the recursion gives: the finish order is the reversed postorder of
visiting all records along the outgoing links, and the groups are, last one first, the preorders of
visiting the roots in that order along the incoming links. -/
theorem find_eq_recursive {records : Array ClassRecord}
    (outgoing : inRange records ClassRecord.outgoing)
    (incoming : inRange records ClassRecord.incoming) :
    ∃ next previous : Fin records.size → List (Fin records.size),
      (∀ v, records[v.val]?.map ClassRecord.outgoing = some ((next v).map Fin.val)) ∧
      (∀ v, records[v.val]?.map ClassRecord.incoming = some ((previous v).map Fin.val)) ∧
      finishOrder (successors records ClassRecord.outgoing) = (Visit.all next).postorder.reverse ∧
      ∃ grouped groups, find records = .ok (grouped, groups) ∧
        groups.map Group.members =
          (Visit.groups previous ∅ (Visit.all next).postorder.reverse).reverse.map
            (List.map Fin.val) := by
  refine ⟨_, _, getElem?_map_eq_successors outgoing, getElem?_map_eq_successors incoming,
    finishOrder_eq_postorder _, _, _, find_of_inRange outgoing incoming, ?_⟩
  rw [ofLinked, components, floodAll_eq_groups, finishOrder_eq_postorder, List.map_map]
  rfl

def recordWith (outgoing incoming : List Nat) : ClassRecord :=
  { fileName := [], className := [], classPath := [], references := [], outgoing, incoming }

/-- Three records with a link to itself, repeated links, and incoming lists that do not match the
outgoing ones. -/
def mismatched : Array ClassRecord :=
  #[recordWith [0, 1, 1] [2, 2], recordWith [2] [], recordWith [0] [2]]

theorem find_eq_recursive_mismatched :
    inRange mismatched ClassRecord.outgoing ∧ inRange mismatched ClassRecord.incoming ∧
      ∃ next previous : Fin 3 → List (Fin 3),
        (∀ v, mismatched[v.val]?.map ClassRecord.outgoing = some ((next v).map Fin.val)) ∧
        (∀ v, mismatched[v.val]?.map ClassRecord.incoming = some ((previous v).map Fin.val)) ∧
        (Visit.all next).postorder.reverse = [0, 1, 2] ∧
        (Visit.groups previous ∅ [0, 1, 2]).reverse.map (List.map Fin.val) = [[1], [0, 2]] := by
  have outgoing : inRange mismatched ClassRecord.outgoing := by decide +kernel
  have incoming : inRange mismatched ClassRecord.incoming := by decide +kernel
  have result : ofLinked mismatched = [⟨[1]⟩, ⟨[0, 2]⟩] := by cbv
  have finished : finishOrder (successors mismatched ClassRecord.outgoing) =
      ([0, 1, 2] : List (Fin 3)) := by
    cbv
  obtain ⟨next, previous, hnext, hprevious, order, grouped, groups, found, members⟩ :=
    find_eq_recursive outgoing incoming
  rw [finished] at order
  rw [← order] at members
  rw [find_of_inRange outgoing incoming, result] at found
  cases found
  exact ⟨outgoing, incoming, next, previous, hnext, hprevious, order.symm, members.symm⟩

end Groups

end ClassOrder
