import ClassOrder.Proofs.InPlace
import ClassOrder.Proofs.Ranks
import Mathlib

/-!
# Groups from any order of roots

The second search does not need its roots in finish order, and its links need not mirror those of the
first one. From roots in any order, a group is what the first root outside the groups before it leads
to and is in none of them (`IsFlood`), and the groups that are there at any moment hold whatever their
members lead to (`Flooded`). Here groups stand in the order of making them.
-/

namespace ClassOrder

namespace Groups

open Successors Search

/-! ## Vertices -/

section Vertices

variable {n : Nat} {previous : Successors n} {order before after : List (Fin n)} {state : Flood n}
  {root v : Fin n}

/-- A group that was made after some others: in front is the first vertex of an order that is in none
of them, and the members are what it leads to and is in none of them. -/
structure IsFlood (previous : Successors n) (order : List (Fin n)) (earlier : List (List (Fin n)))
    (group : List (Fin n)) (root : Fin n) : Prop where
  head : group.head? = some root
  first : order.find? (fun v => v ∉ earlier.flatten) = some root
  mem_iff : ∀ v, v ∈ group ↔ Reaches previous root v ∧ v ∉ earlier.flatten

/-- What the second search has made when it has looked at the roots before some place in an order. -/
structure FloodedInOrder (previous : Successors n) (order before : List (Fin n)) (state : Flood n) :
    Prop where
  flooded : Flooded previous state
  isSeen : ∀ v ∈ before, state.search.isSeen v
  isFlood : ∀ earlier group, earlier ++ [group] <+: state.groups.reverse →
    ∃ root, IsFlood previous order earlier group root

namespace FloodedInOrder

theorem start (previous : Successors n) (order : List (Fin n)) :
    FloodedInOrder previous order [] ⟨Search.start, []⟩ where
  flooded := .start previous
  isSeen := by simp
  isFlood earlier group isPrefix := absurd isPrefix (by simp)

theorem mem_flatten_reverse (h : FloodedInOrder previous order before state) :
    v ∈ state.groups.reverse.flatten ↔ state.search.isSeen v := by
  rw [h.flooded.isSeen_iff, List.mem_flatten, List.mem_flatten]
  simp only [List.mem_reverse]

/-- The group of a new root. -/
theorem isFlood_newGroup (h : FloodedInOrder previous order before state)
    (split : order = before ++ root :: after) (new : ¬state.search.isSeen root) :
    IsFlood previous order state.groups.reverse (newGroup previous state root) root where
  head := head?_newGroup new
  first := by
    refine List.find?_eq_some_iff_append.2 ⟨?_, before, after, split, fun v mem => ?_⟩
    · simpa only [h.mem_flatten_reverse, decide_eq_true_eq] using new
    · simpa only [h.mem_flatten_reverse, decide_not, Bool.not_not, decide_eq_true_eq] using
        h.isSeen v mem
  mem_iff v := by rw [h.flooded.mem_newGroup new, h.mem_flatten_reverse, and_comm]

theorem step (h : FloodedInOrder previous order before state)
    (split : order = before ++ root :: after) :
    FloodedInOrder previous order (before ++ [root]) (flood previous state root) where
  flooded := h.flooded.flood root
  isSeen v mem := by
    rw [h.flooded.isSeen_flood]
    rcases List.mem_append.1 mem with mem | mem
    · exact .inl (h.isSeen v mem)
    · exact .inr (List.mem_singleton.1 mem ▸ .refl)
  isFlood earlier group isPrefix := by
    by_cases seen : state.search.isSeen root
    · rw [flood_of_isSeen seen] at isPrefix
      exact h.isFlood earlier group isPrefix
    · rw [groups_flood seen, List.reverse_cons] at isPrefix
      -- The new group is the last one: a prefix ends with it or was there before.
      rcases List.prefix_concat_iff.1 isPrefix with same | isPrefix
      · obtain ⟨rfl, last⟩ := List.append_inj' same rfl
        cases last
        exact ⟨root, h.isFlood_newGroup split seen⟩
      · exact h.isFlood earlier group isPrefix

theorem foldl (h : FloodedInOrder previous order before state) (split : order = before ++ after) :
    FloodedInOrder previous order order (after.foldl (flood previous) state) := by
  induction after generalizing before state with
  | nil =>
    rw [List.append_nil] at split
    subst split
    exact h
  | cons root after ih => exact ih (h.step split) (by simpa using split)

end FloodedInOrder

/-- The groups that arise from the roots in order, in the order of making them. -/
def floods (previous : Successors n) (order : List (Fin n)) : List (List (Fin n)) :=
  (floodAll previous order).reverse

theorem floodedInOrder_floods (previous : Successors n) (order : List (Fin n)) :
    ∃ state, state.groups.reverse = floods previous order ∧
      FloodedInOrder previous order order state :=
  ⟨_, rfl, (FloodedInOrder.start previous order).foldl rfl⟩

theorem exists_isFlood {k : Nat} {group : List (Fin n)}
    (h : (floods previous order)[k]? = some group) :
    ∃ root, IsFlood previous order ((floods previous order).take k) group root := by
  obtain ⟨state, eq, flooded⟩ := floodedInOrder_floods previous order
  have next : (floods previous order).take (k + 1) = (floods previous order).take k ++ [group] := by
    rw [List.take_add_one, h, Option.toList_some]
  apply flooded.isFlood
  rw [eq, ← next]
  exact List.take_prefix (k + 1) _

theorem nodup_flatten_floods (previous : Successors n) (order : List (Fin n)) :
    (floods previous order).flatten.Nodup := by
  obtain ⟨state, eq, flooded⟩ := floodedInOrder_floods previous order
  rw [← eq]
  exact ((List.reverse_perm _).flatten.nodup_iff).2 flooded.flooded.nodup

theorem mem_flatten_floods {v : Fin n} (mem : v ∈ order) : v ∈ (floods previous order).flatten := by
  obtain ⟨state, eq, flooded⟩ := floodedInOrder_floods previous order
  rw [← eq, flooded.mem_flatten_reverse]
  exact flooded.isSeen v mem

/-- The first groups hold whatever their members lead to. -/
theorem mem_take_floods_of_edge {k : Nat} {u v : Fin n}
    (mem : u ∈ ((floods previous order).take k).flatten) (edge : Edge previous u v) :
    v ∈ ((floods previous order).take k).flatten := by
  obtain ⟨state, eq, flooded⟩ := floodedInOrder_floods previous order
  have suffix : ((floods previous order).take k).reverse <:+ state.groups := by
    rw [← List.reverse_prefix, List.reverse_reverse, eq]
    exact List.take_prefix k _
  have closed := flooded.flooded.closed _ suffix u
  simp only [List.mem_flatten, List.mem_reverse] at closed mem ⊢
  exact closed mem v edge

end Vertices

/-! ## Records -/

section Records

variable {records : Array ClassRecord} {order : List (Fin records.size)}

/-- The groups that arise from some records in order, when every position has a record. -/
def groupsFrom (records : Array ClassRecord) (order : List (Fin records.size)) : List (List Nat) :=
  (floods (successors records ClassRecord.incoming) order).map (List.map Fin.val)

theorem createdGroups_of_inRange (inside : inRange records ClassRecord.incoming)
    (all : ∀ v, v ∈ order) : createdGroups records order = .ok (groupsFrom records order) := by
  rw [createdGroups_eq all, if_pos inside]
  rfl

theorem flatten_take_groupsFrom (records : Array ClassRecord) (order : List (Fin records.size))
    (k : Nat) :
    ((groupsFrom records order).take k).flatten =
      ((floods (successors records ClassRecord.incoming) order).take k).flatten.map Fin.val := by
  rw [groupsFrom, ← List.map_take, List.map_flatten]

theorem val_mem_take_groupsFrom {k : Nat} {v : Fin records.size} :
    v.val ∈ ((groupsFrom records order).take k).flatten ↔
      v ∈ ((floods (successors records ClassRecord.incoming) order).take k).flatten := by
  rw [flatten_take_groupsFrom]
  exact List.mem_map_of_injective Fin.val_injective

/-- What a position leads to along the incoming links. -/
abbrev LeadsBack (records : Array ClassRecord) : Nat → Nat → Prop :=
  Relation.ReflTransGen (Leads records ClassRecord.incoming)

theorem exists_root_of_groupsFrom (inside : inRange records ClassRecord.incoming) {k : Nat}
    {group : List Nat} (h : (groupsFrom records order)[k]? = some group) :
    ∃ root, group.head? = some root ∧
      (order.map Fin.val).find? (fun i => i ∉ ((groupsFrom records order).take k).flatten) =
        some root ∧
      ∀ i, i ∈ group ↔
        LeadsBack records root i ∧ i ∉ ((groupsFrom records order).take k).flatten := by
  rw [groupsFrom, List.getElem?_map, Option.map_eq_some_iff] at h
  obtain ⟨vertices, at_k, rfl⟩ := h
  obtain ⟨root, flood⟩ := exists_isFlood at_k
  have outside : (fun i => decide (i ∉ ((groupsFrom records order).take k).flatten)) ∘ Fin.val =
      fun v : Fin records.size =>
        decide (v ∉ ((floods (successors records ClassRecord.incoming) order).take k).flatten) := by
    funext v
    simp only [Function.comp_apply, val_mem_take_groupsFrom]
  refine ⟨root.val, ?_, ?_, fun i => ⟨fun mem => ?_, fun ⟨path, new⟩ => ?_⟩⟩
  · rw [List.head?_map, flood.head, Option.map_some]
  · rw [List.find?_map, outside, flood.first, Option.map_some]
  · obtain ⟨v, hv, rfl⟩ := List.mem_map.1 mem
    rw [val_mem_take_groupsFrom, LeadsBack, ← reaches_successors (lt_of_leads inside)]
    exact (flood.mem_iff v).1 hv
  · obtain ⟨v, rfl, reached⟩ := exists_reaches_of_leads (lt_of_leads inside) path
    exact List.mem_map_of_mem ((flood.mem_iff v).2 ⟨reached, mt val_mem_take_groupsFrom.2 new⟩)

theorem mem_take_groupsFrom_of_leads (inside : inRange records ClassRecord.incoming) {k i j : Nat}
    (mem : i ∈ ((groupsFrom records order).take k).flatten)
    (leads : Leads records ClassRecord.incoming i j) :
    j ∈ ((groupsFrom records order).take k).flatten := by
  rw [flatten_take_groupsFrom] at mem
  obtain ⟨u, hu, rfl⟩ := List.mem_map.1 mem
  let v : Fin records.size := ⟨j, lt_of_leads inside leads⟩
  have edge : Edge (successors records ClassRecord.incoming) u v := edge_successors_iff.2 leads
  exact val_mem_take_groupsFrom.2 (mem_take_floods_of_edge hu edge)

theorem perm_flatten_groupsFrom (all : ∀ v, v ∈ order) :
    (groupsFrom records order).flatten.Perm (List.range records.size) := by
  rw [groupsFrom, ← List.map_flatten]
  exact perm_map_val (nodup_flatten_floods _ order) fun v => mem_flatten_floods (all v)

/-- If all positions in the incoming links have records, the groups that arise from the records in any
order hold every record once. A group has in front the first record of the order that is in no group
before it, and its members are the records that this one leads to along the incoming links and that
are in no group before. Whatever a member of the first groups leads to is in one of them. -/
theorem createdGroups_of_order (inside : inRange records ClassRecord.incoming)
    (perm : order.Perm (List.finRange records.size)) :
    ∃ groups, createdGroups records order = .ok groups ∧
      groups.flatten.Perm (List.range records.size) ∧
      (∀ (k : Nat) (group : List Nat), groups[k]? = some group →
        group.Nodup ∧ ∃ root, group.head? = some root ∧
          (order.map Fin.val).find? (fun i => i ∉ (groups.take k).flatten) = some root ∧
          ∀ i, i ∈ group ↔ LeadsBack records root i ∧ i ∉ (groups.take k).flatten) ∧
      ∀ k, ∀ i ∈ (groups.take k).flatten, ∀ j, Leads records ClassRecord.incoming i j →
        j ∈ (groups.take k).flatten := by
  have all : ∀ v, v ∈ order := fun v => perm.mem_iff.2 (List.mem_finRange v)
  have flat := perm_flatten_groupsFrom all
  refine ⟨_, createdGroups_of_inRange inside all, flat, fun k group at_k => ⟨?_, ?_⟩, ?_⟩
  · have nodup := flat.nodup_iff.2 List.nodup_range
    exact (List.nodup_flatten.1 nodup).1 group (List.mem_of_getElem? at_k)
  · exact exists_root_of_groupsFrom inside at_k
  · exact fun k i mem j leads => mem_take_groupsFrom_of_leads inside mem leads

end Records

def referredToBy (incoming : List Nat) : ClassRecord :=
  { fileName := [], className := [], classPath := [], references := [], incoming }

/-- Four records whose incoming links mirror no others. -/
def unmirrored : Array ClassRecord :=
  #[referredToBy [1], referredToBy [], referredToBy [0, 3], referredToBy [2]]

/-- An order of these records that is no finish order. -/
def shuffled : List (Fin unmirrored.size) := ([1, 2, 0, 3] : List (Fin 4))

theorem createdGroups_of_order_unmirrored :
    inRange unmirrored ClassRecord.incoming ∧ shuffled.Perm (List.finRange unmirrored.size) ∧
      createdGroups unmirrored shuffled = .ok [[1], [2, 0, 3]] ∧
      ∃ root, [2, 0, 3].head? = some root ∧ [1, 2, 0, 3].find? (fun i => i ∉ [1]) = some root ∧
        ∀ i, i ∈ [2, 0, 3] ↔ LeadsBack unmirrored root i ∧ i ∉ [1] := by
  have inside : inRange unmirrored ClassRecord.incoming := by decide +kernel
  have perm : shuffled.Perm (List.finRange unmirrored.size) := by decide +kernel
  have result : groupsFrom unmirrored shuffled = [[1], [2, 0, 3]] := by cbv
  have all : ∀ v, v ∈ shuffled := fun v => perm.mem_iff.2 (List.mem_finRange v)
  have created := createdGroups_of_inRange inside all
  rw [result] at created
  obtain ⟨groups, found, -, each, -⟩ := createdGroups_of_order inside perm
  rw [created] at found
  cases found
  exact ⟨inside, perm, created, (each 1 _ rfl).2⟩

end Groups

end ClassOrder
