import ClassOrder.Proofs.Ranks
import ClassOrder.Proofs.Recursion

/-!
# Records in the order of their groups

When records are put in the order in which their groups list them, the groups of the new arena are
the old ones, in the same order and with the same first members, however the links of a record are
ordered (`find_renumbered`). The arena is then ranked by its groups (`ranked_of_renumbers`).
-/

namespace ClassOrder

namespace Groups

open Successors

/-- The members of some groups in turn. -/
def order (groups : List Group) : List Nat := groups.flatMap Group.members

/-- The records were put in an order. Their links lead to the new positions of the old targets and
sources, and may themselves stand in any order. -/
structure Renumbers (order : List Nat) (records after : Array ClassRecord) : Prop where
  size : after.size = records.size
  outgoing : ∀ {p i : Nat} {new old : ClassRecord}, order[p]? = some i → after[p]? = some new →
    records[i]? = some old → new.outgoing.Perm (old.outgoing.map order.idxOf)
  incoming : ∀ {p i : Nat} {new old : ClassRecord}, order[p]? = some i → after[p]? = some new →
    records[i]? = some old → new.incoming.Perm (old.incoming.map order.idxOf)

/-! ## Positions in an order -/

section Positions

variable {order : List Nat} {n p i : Nat} (perm : order.Perm (List.range n))

include perm

theorem lt_of_getElem? (h : order[p]? = some i) : i < n ∧ p < n := by
  obtain ⟨lt, rfl⟩ := List.getElem?_eq_some_iff.1 h
  refine ⟨List.mem_range.1 (perm.mem_iff.1 (List.getElem_mem lt)), ?_⟩
  rwa [perm.length_eq, List.length_range] at lt

theorem exists_getElem? (lt : p < n) : ∃ i, order[p]? = some i := by
  have lt : p < order.length := by rwa [perm.length_eq, List.length_range]
  exact ⟨order[p], List.getElem?_eq_getElem lt⟩

theorem getElem?_idxOf (lt : i < n) : order[order.idxOf i]? = some i :=
  List.getElem?_idxOf (perm.mem_iff.2 (List.mem_range.2 lt))

theorem idxOf_of_getElem? (h : order[p]? = some i) : order.idxOf i = p := by
  obtain ⟨lt, rfl⟩ := List.getElem?_eq_some_iff.1 h
  exact (perm.nodup_iff.2 List.nodup_range).idxOf_getElem p lt

theorem mem_map_idxOf {list : List Nat} (inside : ∀ j ∈ list, j < n) (h : order[p]? = some i) :
    p ∈ list.map order.idxOf ↔ i ∈ list := by
  rw [List.mem_map]
  constructor
  · rintro ⟨j, mem, eq⟩
    have at_j := getElem?_idxOf perm (inside j mem)
    rw [eq, h, Option.some_inj] at at_j
    exact at_j ▸ mem
  · exact fun mem => ⟨i, mem, idxOf_of_getElem? perm h⟩

theorem lt_of_mem_map_idxOf {list : List Nat} (inside : ∀ j ∈ list, j < n)
    (mem : p ∈ list.map order.idxOf) : p < n := by
  obtain ⟨j, source, rfl⟩ := List.mem_map.1 mem
  exact (lt_of_getElem? perm (getElem?_idxOf perm (inside j source))).2

end Positions

/-! ## Links of renumbered records -/

namespace Renumbers

variable {order : List Nat} {records after : Array ClassRecord} {p q i j : Nat} {new : ClassRecord}
  (h : Renumbers order records after) (perm : order.Perm (List.range records.size))
  (mirrored : Links.Mirrored records)

include h perm mirrored

omit h perm in
theorem targets_lt {old : ClassRecord} (hold : records[i]? = some old) :
    ∀ k ∈ old.outgoing, k < records.size :=
  fun _ mem => mirrored.lt_of_edge ⟨old, hold, mem⟩

omit h perm in
theorem sources_lt {old : ClassRecord} (hold : records[i]? = some old) :
    ∀ k ∈ old.incoming, k < records.size :=
  fun _ mem => Links.lt_of_edge_left ((mirrored.mem_incoming_iff hold).1 mem)

theorem edge_iff (hi : order[p]? = some i) (hj : order[q]? = some j) :
    Links.Edge after p q ↔ Links.Edge records i j := by
  have hold := Array.getElem?_eq_getElem (lt_of_getElem? perm hi).1
  have hnew := Array.getElem?_eq_getElem (h.size ▸ (lt_of_getElem? perm hi).2 : p < after.size)
  have same := mem_map_idxOf perm (targets_lt mirrored hold) hj
  rw [← (h.outgoing hi hnew hold).mem_iff] at same
  simpa [Links.Edge, hold, hnew] using same

theorem mem_incoming_iff (hi : order[p]? = some i) (hj : order[q]? = some j)
    (hnew : after[q]? = some new) : p ∈ new.incoming ↔ Links.Edge records i j := by
  have hold := Array.getElem?_eq_getElem (lt_of_getElem? perm hj).1
  rw [(h.incoming hj hnew hold).mem_iff, mem_map_idxOf perm (sources_lt mirrored hold) hi,
    mirrored.mem_incoming_iff hold]

theorem lt_of_edge (edge : Links.Edge after p q) : q < after.size := by
  obtain ⟨new, hnew, mem⟩ := edge
  obtain ⟨i, hi⟩ := exists_getElem? perm (h.size ▸ (Array.getElem?_eq_some_iff.1 hnew).1)
  have hold := Array.getElem?_eq_getElem (lt_of_getElem? perm hi).1
  rw [(h.outgoing hi hnew hold).mem_iff] at mem
  exact h.size ▸ lt_of_mem_map_idxOf perm (targets_lt mirrored hold) mem

theorem lt_of_mem_incoming (hnew : after[q]? = some new) (mem : p ∈ new.incoming) :
    p < after.size := by
  obtain ⟨j, hj⟩ := exists_getElem? perm (h.size ▸ (Array.getElem?_eq_some_iff.1 hnew).1)
  have hold := Array.getElem?_eq_getElem (lt_of_getElem? perm hj).1
  rw [(h.incoming hj hnew hold).mem_iff] at mem
  exact h.size ▸ lt_of_mem_map_idxOf perm (sources_lt mirrored hold) mem

theorem mirrored_after : Links.Mirrored after where
  lt_of_edge := h.lt_of_edge perm mirrored
  mem_incoming_iff := by
    intro p q new hq
    by_cases lt : p < records.size
    · obtain ⟨i, hi⟩ := exists_getElem? perm lt
      obtain ⟨j, hj⟩ := exists_getElem? perm (h.size ▸ (Array.getElem?_eq_some_iff.1 hq).1)
      rw [h.mem_incoming_iff perm mirrored hi hj hq, h.edge_iff perm mirrored hi hj]
    · rw [← h.size] at lt
      exact iff_of_false (fun mem => lt (h.lt_of_mem_incoming perm mirrored hq mem))
        fun edge => lt (Links.lt_of_edge_left edge)

theorem reaches (hi : order[p]? = some i) (hj : order[q]? = some j)
    (reached : Links.Reaches records i j) : Links.Reaches after p q := by
  rw [← idxOf_of_getElem? perm hi, ← idxOf_of_getElem? perm hj]
  refine Relation.ReflTransGen.lift order.idxOf (fun a b edge => ?_) _ _ reached
  have ha := getElem?_idxOf perm (Links.lt_of_edge_left edge)
  have hb := getElem?_idxOf perm (mirrored.lt_of_edge edge)
  exact (h.edge_iff perm mirrored ha hb).2 edge

end Renumbers

/-! ## The order of the groups -/

theorem order_eq_append (groups : List Group) (k : Nat) :
    order groups = order (groups.take k) ++ order (groups.drop k) := by
  rw [order, order, order, ← List.flatMap_append, List.take_append_drop]

section Order

variable {groups : List Group} {n p i k l : Nat} (partition : Partitions groups n)

include partition

/-- The members of the first groups take the first places. -/
theorem lt_length_order_take_iff (hi : (order groups)[p]? = some i) (hl : InGroup groups l i) :
    p < (order (groups.take k)).length ↔ l < k := by
  rw [order_eq_append groups k] at hi
  constructor
  · intro lt
    rw [List.getElem?_append_left lt] at hi
    obtain ⟨group, mem, hm⟩ := List.mem_flatMap.1 (List.mem_of_getElem? hi)
    obtain ⟨m, hm'⟩ := List.mem_iff_getElem?.1 mem
    rw [List.getElem?_take] at hm'
    split_ifs at hm' with below
    exact partition.inGroup_unique hl ⟨group, hm', hm⟩ ▸ below
  · intro below
    by_contra le
    rw [List.getElem?_append_right (not_lt.1 le)] at hi
    obtain ⟨group, mem, hm⟩ := List.mem_flatMap.1 (List.mem_of_getElem? hi)
    obtain ⟨m, hm'⟩ := List.mem_iff_getElem?.1 mem
    rw [List.getElem?_drop] at hm'
    have := partition.inGroup_unique hl ⟨group, hm', hm⟩
    omega

/-- The first member of a group is in front of the others. -/
theorem idxOf_head {group : Group} {first : Nat} (hk : groups[k]? = some group)
    (head : group.members.head? = some first) :
    (order groups).idxOf first = (order (groups.take k)).length := by
  refine idxOf_of_getElem? partition.perm ?_
  obtain ⟨lt, rfl⟩ := List.getElem?_eq_some_iff.1 hk
  have front : (order (groups.drop k))[0]? = some first := by
    rw [List.drop_eq_getElem_cons lt, order, List.flatMap_cons, ← List.head?_eq_getElem?,
      List.head?_append, head, Option.some_or]
  rw [order_eq_append groups k, List.getElem?_append_right le_rfl, Nat.sub_self, front]

/-- The group that a place in the order of the groups belongs to. -/
def groupAt (groups : List Group) (p : Nat) : Nat :=
  groups.findIdx fun group => (order groups)[p]?.any (· ∈ group.members)

theorem groupAt_eq_iff (hi : (order groups)[p]? = some i) :
    groupAt groups p = k ↔ InGroup groups k i := by
  have found : InGroup groups (groupAt groups p) i := by
    obtain ⟨m, group, hm, mem⟩ := partition.exists_inGroup (lt_of_getElem? partition.perm hi).1
    have lt : groupAt groups p < groups.length :=
      List.findIdx_lt_length_of_exists ⟨group, List.mem_of_getElem? hm, by simp [hi, mem]⟩
    refine ⟨groups[groupAt groups p], List.getElem?_eq_getElem lt, ?_⟩
    have holds := List.findIdx_getElem (w := lt)
    simpa [groupAt, hi] using holds
  exact ⟨fun eq => eq ▸ found, fun h => partition.inGroup_unique found h⟩

theorem groupAt_mono {q : Nat} (lt : q < n) (le : p ≤ q) : groupAt groups p ≤ groupAt groups q := by
  obtain ⟨i, hi⟩ := exists_getElem? partition.perm (Nat.lt_of_le_of_lt le lt)
  obtain ⟨j, hj⟩ := exists_getElem? partition.perm lt
  have inI := (groupAt_eq_iff partition hi).1 rfl
  have inJ := (groupAt_eq_iff partition hj).1 rfl
  have upTo := (lt_length_order_take_iff partition hj inJ).2 (Nat.lt_succ_self _)
  exact Nat.le_of_lt_succ ((lt_length_order_take_iff partition hi inI).1 (Nat.lt_of_le_of_lt le upTo))

end Order

/-! ## The groups of renumbered records -/

section Mirrored

variable {records after : Array ClassRecord} (mirrored : Links.Mirrored records)
  (renumbers : Renumbers (order (ofLinked records)) records after)

include mirrored renumbers

/-- In the order of its groups, an arena is ranked by them. -/
theorem ranked_of_renumbers : Ranked (successors after ClassRecord.outgoing)
    fun p => groupAt (ofLinked records) p := by
  have partition := partitions_ofLinked records
  have perm : (order (ofLinked records)).Perm (List.range records.size) := partition.perm
  have mirroredAfter := renumbers.mirrored_after perm mirrored
  have old : ∀ p : Fin after.size, ∃ i, (order (ofLinked records))[p.val]? = some i :=
    fun p => exists_getElem? perm (renumbers.size ▸ p.isLt)
  refine ⟨fun {p q} le => groupAt_mono partition (renumbers.size ▸ q.isLt) le, ?_, ?_⟩
  · intro p q edge
    obtain ⟨i, hi⟩ := old p
    obtain ⟨j, hj⟩ := old q
    have edge := (renumbers.edge_iff perm mirrored hi hj).1 (edge_outgoing.1 edge)
    exact le_of_edge mirrored ((groupAt_eq_iff partition hi).1 rfl)
      ((groupAt_eq_iff partition hj).1 rfl) edge
  · intro p q same
    obtain ⟨i, hi⟩ := old p
    obtain ⟨j, hj⟩ := old q
    have inGroup := (groupAt_eq_iff partition hi).1 same
    have reached := ((inGroup_iff_mutual mirrored inGroup).1
      ((groupAt_eq_iff partition hj).1 rfl)).1
    exact (reaches_outgoing mirroredAfter).2 (renumbers.reaches perm mirrored hi hj reached)

omit mirrored renumbers in
theorem lt_length_iff_groupAt (size : after.size = records.size) (k : Nat) :
    k < (ofLinked records).length ↔ ∃ p : Fin after.size, groupAt (ofLinked records) p = k := by
  have partition := partitions_ofLinked records
  constructor
  · intro lt
    obtain ⟨i, mem⟩ := List.exists_mem_of_ne_nil _ (partition.ne_nil _ (List.getElem_mem lt))
    have inGroup : InGroup (ofLinked records) k i := ⟨_, List.getElem?_eq_getElem lt, mem⟩
    have hi := getElem?_idxOf partition.perm (partition.lt_of_inGroup inGroup)
    have inside : (order (ofLinked records)).idxOf i < after.size := by
      rw [size]
      exact (lt_of_getElem? partition.perm hi).2
    exact ⟨⟨_, inside⟩, (groupAt_eq_iff partition hi).2 inGroup⟩
  · rintro ⟨p, rfl⟩
    obtain ⟨i, hi⟩ := exists_getElem? partition.perm (size ▸ p.isLt : p.val < records.size)
    obtain ⟨group, hk, -⟩ := (groupAt_eq_iff partition hi).1 rfl
    exact (List.getElem?_eq_some_iff.1 hk).1

section Members

variable {group : Group} {k : Nat} {members : List (Fin after.size)}
  (hk : (ofLinked records)[k]? = some group)
  (mem_iff : ∀ p, p ∈ members ↔ groupAt (ofLinked records) p = k)

include hk mem_iff

omit mirrored renumbers in
/-- The places that belong to a group are the new positions of its members. -/
theorem perm_map_idxOf (size : after.size = records.size) (nodup : members.Nodup) :
    (members.map Fin.val).Perm (group.members.map (order (ofLinked records)).idxOf) := by
  have partition := partitions_ofLinked records
  have perm : (order (ofLinked records)).Perm (List.range records.size) := partition.perm
  have inside : ∀ i ∈ group.members, i < records.size := fun i mem =>
    partition.lt_of_inGroup ⟨group, hk, mem⟩
  have renamed : (group.members.map (order (ofLinked records)).idxOf).Nodup := by
    refine (partition.nodup_members (List.mem_of_getElem? hk)).map_on fun i hi j _ eq => ?_
    exact (List.idxOf_inj (perm.mem_iff.2 (List.mem_range.2 (inside i hi)))).1 eq
  refine (List.perm_ext_iff_of_nodup (nodup.map Fin.val_injective) renamed).2 fun p => ?_
  by_cases lt : p < records.size
  · obtain ⟨i, hi⟩ := exists_getElem? perm lt
    have here := mem_iff ⟨p, size ▸ lt⟩
    rw [groupAt_eq_iff partition hi, InGroup, hk,
      ← List.mem_map_of_injective Fin.val_injective] at here
    rw [mem_map_idxOf perm inside hi, here]
    simp
  · refine iff_of_false (fun mem => lt ?_) fun mem => lt (lt_of_mem_map_idxOf perm inside mem)
    obtain ⟨q, -, rfl⟩ := List.mem_map.1 mem
    exact size ▸ q.isLt

omit mirrored renumbers in
/-- The least of these places is that of the first member. -/
theorem head?_map_idxOf (size : after.size = records.size) {r : Fin after.size} (hr : r ∈ members)
    (least : ∀ v ∈ members, r ≤ v) :
    group.members.head?.map (order (ofLinked records)).idxOf = some r.val := by
  have partition := partitions_ofLinked records
  have perm : (order (ofLinked records)).Perm (List.range records.size) := partition.perm
  obtain ⟨first, head⟩ := Option.isSome_iff_exists.1
    (List.isSome_head?.2 (partition.ne_nil group (List.mem_of_getElem? hk)))
  have inGroup : InGroup (ofLinked records) k first := ⟨group, hk, List.mem_of_mem_head? head⟩
  have place := getElem?_idxOf perm (partition.lt_of_inGroup inGroup)
  have lt : (order (ofLinked records)).idxOf first < after.size :=
    size ▸ (lt_of_getElem? perm place).2
  have le : r.val ≤ (order (ofLinked records)).idxOf first :=
    least ⟨_, lt⟩ ((mem_iff _).2 ((groupAt_eq_iff partition place).2 inGroup))
  -- Nothing of the group is in front of the place where the groups before it end.
  obtain ⟨i, hi⟩ := exists_getElem? perm (size ▸ r.isLt : r.val < records.size)
  have ge := (lt_length_order_take_iff (k := k) partition hi
    ((groupAt_eq_iff partition hi).1 ((mem_iff r).1 hr))).not.2 (Nat.lt_irrefl k)
  rw [idxOf_head partition hk head] at le
  rw [head, Option.map_some, idxOf_head partition hk head]
  exact congrArg some (le_antisymm (not_lt.1 ge) le)

end Members

/-- The groups of the renumbered records are the old ones under their new positions. -/
theorem ofLinked_of_renumbers :
    (ofLinked after).length = (ofLinked records).length ∧
    ∀ (k : Nat) (group : Group), (ofLinked records)[k]? = some group →
      ∃ again, (ofLinked after)[k]? = some again ∧
        again.members.Perm (group.members.map (order (ofLinked records)).idxOf) ∧
        again.members.head? = group.members.head?.map (order (ofLinked records)).idxOf := by
  have mirroredAfter := renumbers.mirrored_after (partitions_ofLinked records).perm mirrored
  obtain ⟨length, each⟩ := components_of_ranked (ranked_of_renumbers mirrored renumbers)
    (transposed_successors mirroredAfter) (lt_length_iff_groupAt renumbers.size)
  refine ⟨by rw [ofLinked, List.length_map, length], fun k group hk => ?_⟩
  have lt : k < (components (successors after ClassRecord.outgoing)
      (successors after ClassRecord.incoming)).length := by
    rw [length]
    exact (List.getElem?_eq_some_iff.1 hk).1
  obtain ⟨members, at_k⟩ : ∃ members, (components (successors after ClassRecord.outgoing)
      (successors after ClassRecord.incoming))[k]? = some members :=
    ⟨_, List.getElem?_eq_getElem lt⟩
  obtain ⟨nodup, mem_iff, r, hr, least⟩ := each k members at_k
  refine ⟨⟨members.map Fin.val⟩, by rw [ofLinked, List.getElem?_map, at_k, Option.map_some],
    perm_map_idxOf hk mem_iff renumbers.size nodup, ?_⟩
  rw [head?_map_idxOf hk mem_iff renumbers.size (List.mem_of_mem_head? hr) least, List.head?_map,
    hr, Option.map_some]

end Mirrored

/-! ## Links that lead back -/

/-- When every link leads to a smaller position, the groups are the single records in order. -/
theorem ofLinked_of_descending {records : Array ClassRecord} (mirrored : Links.Mirrored records)
    (descending : ∀ i j, Links.Edge records i j → j < i) :
    ofLinked records = (List.range records.size).map fun i => ⟨[i]⟩ := by
  have ranked : Ranked (successors records ClassRecord.outgoing) Fin.val :=
    ⟨fun le => le, fun edge => Nat.le_of_lt (descending _ _ (edge_outgoing.1 edge)),
      fun same => Fin.ext same ▸ .refl⟩
  obtain ⟨length, each⟩ := components_of_ranked ranked (transposed_successors mirrored)
    fun k => ⟨fun lt => ⟨⟨k, lt⟩, rfl⟩, fun ⟨v, eq⟩ => eq ▸ v.isLt⟩
  have singles : components (successors records ClassRecord.outgoing)
      (successors records ClassRecord.incoming) =
        (List.finRange records.size).map fun v => [v] := by
    refine List.ext_getElem (by rw [length, List.length_map, List.length_finRange]) ?_
    intro k lt lt'
    obtain ⟨nodup, mem_iff, -⟩ := each k _ (List.getElem?_eq_getElem lt)
    rw [List.getElem_map, List.getElem_finRange]
    refine List.perm_singleton.1 ((List.perm_ext_iff_of_nodup nodup (List.nodup_singleton _)).2 ?_)
    intro v
    rw [mem_iff, List.mem_singleton, Fin.ext_iff]
    rfl
  rw [ofLinked, singles, List.map_map, ← List.map_coe_finRange_eq_range, List.map_map]
  rfl

/-! ## The outcome -/

/-- Records with links in both directions can be put in the order in which their groups list them:
then the groups are the same, in the same order and with the same first members, whatever becomes of
the order of links. Where every link leads to a smaller position, that is the order they have. -/
theorem find_renumbered {records : Array ClassRecord} (mirrored : Links.Mirrored records) :
    ∃ grouped groups, find records = .ok (grouped, groups) ∧
      (order groups).Perm (List.range records.size) ∧
      (∀ after, Renumbers (order groups) records after →
        ∃ regrouped regroups, find after = .ok (regrouped, regroups) ∧
          regroups.length = groups.length ∧
          ∀ (k : Nat) (group : Group), groups[k]? = some group →
            ∃ again, regroups[k]? = some again ∧
              again.members.Perm (group.members.map (order groups).idxOf) ∧
              again.members.head? = group.members.head?.map (order groups).idxOf) ∧
      ((∀ i j, Links.Edge records i j → j < i) →
        groups = (List.range records.size).map fun i => ⟨[i]⟩) := by
  have perm := (partitions_ofLinked records).perm
  refine ⟨_, _, find_of_mirrored mirrored, perm, fun after renumbers => ?_,
    ofLinked_of_descending mirrored⟩
  exact ⟨_, _, find_of_mirrored (renumbers.mirrored_after perm mirrored),
    ofLinked_of_renumbers mirrored renumbers⟩

/-- Three records that refer to each other, of which the last one refers to a fourth one. -/
def fork : Array ClassRecord :=
  #[recordWith [1, 2] [1, 2], recordWith [0] [0], recordWith [0, 3] [0], recordWith [] [2]]

/-- The same records in the order of their groups, with their links in another order. -/
def forkInOrder : Array ClassRecord :=
  #[recordWith [] [3], recordWith [3, 2] [3, 2], recordWith [1] [1], recordWith [0, 1] [1]]

theorem mirrored_fork : Links.Mirrored fork where
  lt_of_edge := by
    rintro i j ⟨record, hi, mem⟩
    have inside : ∀ record ∈ fork, ∀ j ∈ record.outgoing, j < fork.size := by decide +kernel
    exact inside record (Array.mem_of_getElem? hi) j mem
  mem_incoming_iff := by
    intro i j record hj
    have inside : ∀ record ∈ fork, ∀ i ∈ record.incoming, i < fork.size := by decide +kernel
    have same : ∀ i j : Fin fork.size, i.val ∈ fork[j].incoming ↔ j.val ∈ fork[i].outgoing := by
      decide +kernel
    obtain ⟨lt, rfl⟩ := Array.getElem?_eq_some_iff.1 hj
    constructor
    · intro mem
      have lt' := inside _ (Array.getElem_mem lt) i mem
      exact ⟨_, Array.getElem?_eq_getElem lt', (same ⟨i, lt'⟩ ⟨j, lt⟩).1 mem⟩
    · rintro ⟨source, hi, mem⟩
      obtain ⟨lt', rfl⟩ := Array.getElem?_eq_some_iff.1 hi
      exact (same ⟨i, lt'⟩ ⟨j, lt⟩).2 mem

theorem renumbers_fork : Renumbers [3, 0, 1, 2] fork forkInOrder where
  size := rfl
  outgoing := by
    intro p i new old hp hnew hold
    rcases p with _ | _ | _ | _ | p <;> cases hp <;> cases hnew <;> cases hold <;> decide
  incoming := by
    intro p i new old hp hnew hold
    rcases p with _ | _ | _ | _ | p <;> cases hp <;> cases hnew <;> cases hold <;> decide

theorem find_renumbered_fork :
    Links.Mirrored fork ∧ Renumbers [3, 0, 1, 2] fork forkInOrder ∧
      ∃ grouped regrouped regroups, find fork = .ok (grouped, [⟨[3]⟩, ⟨[0, 1, 2]⟩]) ∧
        find forkInOrder = .ok (regrouped, regroups) ∧ regroups = [⟨[0]⟩, ⟨[1, 3, 2]⟩] ∧
        regroups.length = 2 ∧ ∃ again, regroups[1]? = some again ∧
          again.members.Perm [1, 2, 3] ∧ again.members.head? = some 1 := by
  have result : ofLinked fork = [⟨[3]⟩, ⟨[0, 1, 2]⟩] := by cbv
  have result' : ofLinked forkInOrder = [⟨[0]⟩, ⟨[1, 3, 2]⟩] := by cbv
  obtain ⟨grouped, groups, found, -, renumbered, -⟩ := find_renumbered mirrored_fork
  have same := found.symm.trans (find_of_mirrored mirrored_fork)
  rw [result] at same
  cases same
  obtain ⟨regrouped, regroups, found', length, each⟩ := renumbered forkInOrder renumbers_fork
  have same' : regroups = [⟨[0]⟩, ⟨[1, 3, 2]⟩] := by
    have mirrored := renumbers_fork.mirrored_after (by decide) mirrored_fork
    have same := found'.symm.trans (find_of_mirrored mirrored)
    rw [result'] at same
    cases same
    rfl
  exact ⟨mirrored_fork, renumbers_fork, _, regrouped, regroups, found, found', same', length,
    each 1 _ rfl⟩

end Groups

end ClassOrder
