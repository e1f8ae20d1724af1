import ClassOrder.Proofs.Components
import ClassOrder.Proofs.Links

/-!
# Groups of linked records

The groups of records are a partition (`partitions_ofLinked`). Those of mirrored records are the
classes of mutually reachable records (`mem_members_iff_mutual`), and a link never leads to a group
further back (`le_of_edge`). `Groups.find` makes these groups of connected records and notes them in
the records (`find_of_mirrored`, `Partitions.groupOf_markAll`).
-/

namespace ClassOrder

namespace Groups

open Successors

/-- A record is a member of the group at a position. -/
def InGroup (groups : List Group) (k i : Nat) : Prop :=
  ∃ group, groups[k]? = some group ∧ i ∈ group.members

/-- The group that is noted in the record at a position. -/
def groupOf (records : Array ClassRecord) (i : Nat) : Option Nat :=
  records[i]?.bind ClassRecord.group

/-- A list of a record holds a position. -/
def Leads (records : Array ClassRecord) (lists : ClassRecord → List Nat) (i j : Nat) : Prop :=
  ∃ record, records[i]? = some record ∧ j ∈ lists record

/-! ## Records as vertices -/

theorem mem_bounded {n : Nat} {positions : List Nat} {v : Fin n} :
    v ∈ bounded n positions ↔ v.val ∈ positions := by
  simp only [bounded, List.mem_filterMap, Option.dite_none_right_eq_some, Option.some.injEq]
  constructor
  · rintro ⟨i, mem, -, rfl⟩
    exact mem
  · exact fun mem => ⟨v.val, mem, v.isLt, rfl⟩

theorem get_successors {records : Array ClassRecord} {lists : ClassRecord → List Nat}
    {u : Fin records.size} {record : ClassRecord} (h : records[u.val]? = some record) :
    (successors records lists).get u = bounded records.size (lists record) := by
  obtain ⟨lt, rfl⟩ := Array.getElem?_eq_some_iff.1 h
  change (successors records lists)[u.val] = _
  simp [successors]

theorem edge_successors {records : Array ClassRecord} {lists : ClassRecord → List Nat}
    {u v : Fin records.size} {record : ClassRecord} (h : records[u.val]? = some record) :
    Edge (successors records lists) u v ↔ v.val ∈ lists record := by
  rw [Edge, get_successors h, mem_bounded]

theorem edge_successors_iff {records : Array ClassRecord} {lists : ClassRecord → List Nat}
    {u v : Fin records.size} :
    Edge (successors records lists) u v ↔ Leads records lists u v := by
  have at_u := Array.getElem?_eq_getElem u.isLt
  rw [edge_successors at_u, Leads, at_u]
  simp

theorem edge_outgoing {records : Array ClassRecord} {u v : Fin records.size} :
    Edge (successors records ClassRecord.outgoing) u v ↔ Links.Edge records u v :=
  edge_successors_iff

section Reaches

variable {records : Array ClassRecord} {lists : ClassRecord → List Nat} {u v : Fin records.size}
  (inside : ∀ {i j}, Leads records lists i j → j < records.size)

include inside

theorem exists_reaches_of_leads {j : Nat} (h : Relation.ReflTransGen (Leads records lists) u j) :
    ∃ v : Fin records.size, v.val = j ∧ Reaches (successors records lists) u v := by
  induction h with
  | refl => exact ⟨u, rfl, .refl⟩
  | @tail i j _ leads ih =>
    obtain ⟨v, rfl, reached⟩ := ih
    exact ⟨⟨j, inside leads⟩, rfl, reached.tail (edge_successors_iff.2 leads)⟩

theorem reaches_successors :
    Reaches (successors records lists) u v ↔ Relation.ReflTransGen (Leads records lists) u v := by
  constructor
  · intro h
    induction h with
    | refl => exact .refl
    | tail _ edge ih => exact ih.tail (edge_successors_iff.1 edge)
  · intro h
    obtain ⟨w, eq, reached⟩ := exists_reaches_of_leads inside h
    exact Fin.ext eq ▸ reached

end Reaches

/-! ## Partitions -/

/-- The groups hold every position below a bound once, and none of them is empty. -/
structure Partitions (groups : List Group) (n : Nat) : Prop where
  perm : (groups.flatMap Group.members).Perm (List.range n)
  ne_nil : ∀ group ∈ groups, group.members ≠ []

namespace Partitions

variable {groups : List Group} {n : Nat} {k l i : Nat}

theorem nodup (h : Partitions groups n) : (groups.map Group.members).flatten.Nodup := by
  rw [← List.flatMap_def]
  exact h.perm.nodup_iff.2 List.nodup_range

theorem nodup_members (h : Partitions groups n) {group : Group} (mem : group ∈ groups) :
    group.members.Nodup :=
  (List.nodup_flatten.1 h.nodup).1 _ (List.mem_map_of_mem mem)

theorem exists_inGroup (h : Partitions groups n) (lt : i < n) : ∃ k, InGroup groups k i := by
  have mem : i ∈ groups.flatMap Group.members := h.perm.mem_iff.2 (List.mem_range.2 lt)
  obtain ⟨group, mem, hi⟩ := List.mem_flatMap.1 mem
  obtain ⟨k, hk⟩ := List.mem_iff_getElem?.1 mem
  exact ⟨k, group, hk, hi⟩

theorem lt_of_inGroup (h : Partitions groups n) (hk : InGroup groups k i) : i < n := by
  obtain ⟨group, hk, hi⟩ := hk
  have mem : i ∈ groups.flatMap Group.members :=
    List.mem_flatMap.2 ⟨group, List.mem_of_getElem? hk, hi⟩
  exact List.mem_range.1 (h.perm.mem_iff.1 mem)

theorem inGroup_unique (h : Partitions groups n) (hk : InGroup groups k i)
    (hl : InGroup groups l i) : k = l := by
  obtain ⟨group, hk, hi⟩ := hk
  obtain ⟨other, hl, hi'⟩ := hl
  have hk' : (groups.map Group.members)[k]? = some group.members := by
    rw [List.getElem?_map, hk, Option.map_some]
  have hl' : (groups.map Group.members)[l]? = some other.members := by
    rw [List.getElem?_map, hl, Option.map_some]
  exact index_unique h.nodup hk' hi hl' hi'

end Partitions

/-- A list of all vertices without repetition holds every position once. -/
theorem perm_map_val {n : Nat} {order : List (Fin n)} (nodup : order.Nodup)
    (all : ∀ v, v ∈ order) : (order.map Fin.val).Perm (List.range n) := by
  rw [← List.map_coe_finRange_eq_range]
  refine List.Perm.map _ ((List.perm_ext_iff_of_nodup nodup (List.nodup_finRange n)).2 fun v => ?_)
  exact iff_of_true (all v) (List.mem_finRange v)

/-- Whatever the links of the records are, their groups are a partition. -/
theorem partitions_ofLinked (records : Array ClassRecord) :
    Partitions (ofLinked records) records.size where
  perm := by
    have flat : (ofLinked records).flatMap Group.members =
        (components (successors records ClassRecord.outgoing)
          (successors records ClassRecord.incoming)).flatten.map Fin.val := by
      rw [ofLinked, List.flatMap_map, List.flatMap_def, List.map_flatten]
    rw [flat]
    exact perm_map_val (nodup_components ..) fun v => List.mem_flatten.2 (mem_components _ _ v)
  ne_nil group mem := by
    obtain ⟨members, component, rfl⟩ := List.mem_map.1 mem
    simpa using ne_nil_of_mem_components component

section Mirrored

variable {records : Array ClassRecord} (mirrored : Links.Mirrored records)

include mirrored

theorem transposed_successors :
    Transposed (successors records ClassRecord.outgoing)
      (successors records ClassRecord.incoming) := by
  intro u v
  have at_v := Array.getElem?_eq_getElem v.isLt
  rw [edge_successors at_v, edge_outgoing]
  exact mirrored.mem_incoming_iff at_v

theorem exists_reaches {u : Fin records.size} {j : Nat} (h : Links.Reaches records u j) :
    ∃ v : Fin records.size, v.val = j ∧ Reaches (successors records ClassRecord.outgoing) u v :=
  exists_reaches_of_leads mirrored.lt_of_edge h

theorem reaches_outgoing {u v : Fin records.size} :
    Reaches (successors records ClassRecord.outgoing) u v ↔ Links.Reaches records u v :=
  reaches_successors mirrored.lt_of_edge

/-! ## The groups -/

/-- The groups are the classes of mutually reachable records. -/
theorem mem_members_iff_mutual {group : Group} (mem : group ∈ ofLinked records) {i j : Nat}
    (hi : i ∈ group.members) :
    j ∈ group.members ↔ Links.Reaches records i j ∧ Links.Reaches records j i := by
  obtain ⟨members, component, rfl⟩ := List.mem_map.1 mem
  obtain ⟨u, hu, rfl⟩ := List.mem_map.1 hi
  have mutually : ∀ v, v ∈ members ↔ Links.Reaches records u v ∧ Links.Reaches records v u := by
    intro v
    rw [mem_group_iff_mutual (transposed_successors mirrored) component hu, Mutual,
      reaches_outgoing mirrored, reaches_outgoing mirrored]
  constructor
  · intro hj
    obtain ⟨v, hv, rfl⟩ := List.mem_map.1 hj
    exact (mutually v).1 hv
  · rintro ⟨there, back⟩
    obtain ⟨v, rfl, -⟩ := exists_reaches mirrored there
    exact List.mem_map_of_mem ((mutually v).2 ⟨there, back⟩)

/-- A link never leads to a group further back. -/
theorem le_of_edge {k l i j : Nat} (hk : InGroup (ofLinked records) k i)
    (hl : InGroup (ofLinked records) l j) (edge : Links.Edge records i j) : l ≤ k := by
  obtain ⟨_, hk, hi⟩ := hk
  obtain ⟨_, hl, hj⟩ := hl
  rw [ofLinked, List.getElem?_map, Option.map_eq_some_iff] at hk hl
  obtain ⟨source, hk, rfl⟩ := hk
  obtain ⟨target, hl, rfl⟩ := hl
  obtain ⟨u, hu, rfl⟩ := List.mem_map.1 hi
  obtain ⟨v, hv, rfl⟩ := List.mem_map.1 hj
  exact group_le_of_edge (transposed_successors mirrored) hk hu hl hv (edge_outgoing.2 edge)

theorem inGroup_iff_mutual {k i j : Nat} (hk : InGroup (ofLinked records) k i) :
    InGroup (ofLinked records) k j ↔ Links.Reaches records i j ∧ Links.Reaches records j i := by
  obtain ⟨group, hk, hi⟩ := hk
  rw [← mem_members_iff_mutual mirrored (List.mem_of_getElem? hk) hi, InGroup, hk]
  simp

end Mirrored

/-! ## Notes in the records -/

theorem getElem?_mark (records : Array ClassRecord) (group : Group) (k i : Nat) :
    (mark records group k)[i]? = records[i]?.map fun record =>
      if i ∈ group.members then { record with group := some k } else record := by
  unfold mark
  induction group.members generalizing records with
  | nil => simp
  | cons member members ih =>
    rw [List.foldl_cons, ih, Array.getElem?_modify]
    by_cases h : member = i
    · subst h
      simp only [if_true, List.mem_cons_self, Option.map_map]
      congr 1
      funext record
      split_ifs <;> rfl
    · simp [h, Ne.symm h]

/-- What a note about the group does not change stays the same in every record. -/
theorem map_mark {α : Type} {f : ClassRecord → α}
    (frame : ∀ record k, f { record with group := some k } = f record)
    (records : Array ClassRecord) (group : Group) (k : Nat) :
    (mark records group k).map f = records.map f := by
  apply Array.ext_getElem?
  intro i
  rw [Array.getElem?_map, Array.getElem?_map, getElem?_mark, Option.map_map]
  congr 1
  funext record
  simp only [Function.comp_apply]
  split_ifs
  · exact frame record k
  · rfl

theorem size_mark (records : Array ClassRecord) (group : Group) (k : Nat) :
    (mark records group k).size = records.size := by
  simpa using congrArg Array.size (map_mark (f := fun _ => ()) (fun _ _ => rfl) records group k)

theorem map_markAll {α : Type} {f : ClassRecord → α}
    (frame : ∀ record k, f { record with group := some k } = f record)
    (records : Array ClassRecord) (groups : List Group) :
    (markAll records groups).map f = records.map f := by
  unfold markAll
  generalize groups.zipIdx = entries
  induction entries generalizing records with
  | nil => rfl
  | cons entry entries ih => rw [List.foldl_cons, ih, map_mark frame]

theorem size_markAll (records : Array ClassRecord) (groups : List Group) :
    (markAll records groups).size = records.size := by
  have := congrArg Array.size (map_markAll (f := fun _ => ()) (fun _ _ => rfl) records groups)
  simpa using this

theorem edge_markAll (records : Array ClassRecord) (groups : List Group) :
    Links.Edge (markAll records groups) = Links.Edge records := by
  have outgoing := map_markAll (f := ClassRecord.outgoing) (fun _ _ => rfl) records groups
  funext i j
  have at_i : (markAll records groups)[i]?.map ClassRecord.outgoing =
      records[i]?.map ClassRecord.outgoing := by
    rw [← Array.getElem?_map, outgoing, Array.getElem?_map]
  have links : ∀ arena : Array ClassRecord, Links.Edge arena i j ↔
      ∃ targets, arena[i]?.map ClassRecord.outgoing = some targets ∧ j ∈ targets := by
    intro arena
    simp [Links.Edge]
  rw [links, links, at_i]

/-- Notes about other records change nothing. -/
theorem getElem?_foldl_mark_of_notMem (entries : List (Group × Nat)) (records : Array ClassRecord)
    {i : Nat} (h : ∀ entry ∈ entries, i ∉ entry.1.members) :
    (entries.foldl (fun records (group, k) => mark records group k) records)[i]? = records[i]? := by
  induction entries generalizing records with
  | nil => rfl
  | cons entry entries ih =>
    obtain ⟨here, later⟩ := List.forall_mem_cons.1 h
    rw [List.foldl_cons, ih _ later, getElem?_mark]
    simp [here]

/-- When all groups of a record have one number, that number is noted. -/
theorem groupOf_foldl_mark {entries : List (Group × Nat)} {records : Array ClassRecord} {k i : Nat}
    (lt : i < records.size) (same : ∀ entry ∈ entries, i ∈ entry.1.members → entry.2 = k)
    (some : ∃ entry ∈ entries, i ∈ entry.1.members) :
    groupOf (entries.foldl (fun records (group, k) => mark records group k) records) i = .some k := by
  induction entries generalizing records with
  | nil => simp at some
  | cons entry entries ih =>
    obtain ⟨here, later⟩ := List.forall_mem_cons.1 same
    by_cases again : ∃ entry ∈ entries, i ∈ entry.1.members
    · exact ih (size_mark records entry.1 entry.2 ▸ lt) later again
    · have mem : i ∈ entry.1.members := by
        obtain ⟨other, hother, hi⟩ := some
        rcases List.mem_cons.1 hother with rfl | hother
        · exact hi
        · exact absurd ⟨other, hother, hi⟩ again
      rw [List.foldl_cons, groupOf,
        getElem?_foldl_mark_of_notMem _ _ fun other hother hi => again ⟨other, hother, hi⟩,
        getElem?_mark, Array.getElem?_eq_getElem lt]
      simp [mem, here mem]

theorem Partitions.groupOf_markAll {records : Array ClassRecord} {groups : List Group}
    (h : Partitions groups records.size) {k i : Nat} :
    groupOf (markAll records groups) i = some k ↔ InGroup groups k i := by
  have noted : ∀ {l}, InGroup groups l i → groupOf (markAll records groups) i = some l := by
    intro l hl
    refine groupOf_foldl_mark (h.lt_of_inGroup hl) ?_ ?_
    · rintro ⟨group, m⟩ mem hi
      exact h.inGroup_unique ⟨group, List.mem_zipIdx_iff_getElem?.1 mem, hi⟩ hl
    · obtain ⟨group, hl, hi⟩ := hl
      exact ⟨(group, l), List.mem_zipIdx_iff_getElem?.2 hl, hi⟩
  refine ⟨fun hk => ?_, noted⟩
  have lt : i < records.size := by
    rw [groupOf, Option.bind_eq_some_iff] at hk
    obtain ⟨record, hi, -⟩ := hk
    exact size_markAll records _ ▸ (Array.getElem?_eq_some_iff.1 hi).1
  obtain ⟨l, hl⟩ := h.exists_inGroup lt
  obtain rfl : l = k := Option.some.inj ((noted hl).symm.trans hk)
  exact hl

/-! ## Cyclic groups -/

section Cyclic

variable {records : Array ClassRecord} (mirrored : Links.Mirrored records) {group : Group}

include mirrored

omit mirrored in
/-- A cyclic group has two members, so one beside any given record. -/
theorem exists_ne_of_isCyclic (nodup : group.members.Nodup) (cyclic : group.isCyclic) (m : Nat) :
    ∃ x ∈ group.members, x ≠ m := by
  obtain ⟨members⟩ := group
  match members, cyclic with
  | x :: y :: rest, _ =>
    by_cases hx : x = m
    · refine ⟨y, by simp, fun hy => ?_⟩
      simp [hx, hy] at nodup
    · exact ⟨x, by simp, hx⟩

omit mirrored in
theorem isCyclic_of_ne {x y : Nat} (hx : x ∈ group.members) (hy : y ∈ group.members)
    (ne : x ≠ y) : group.isCyclic := by
  obtain ⟨members⟩ := group
  match members, hx, hy with
  | [z], hx, hy => exact absurd ((List.mem_singleton.1 hx).trans (List.mem_singleton.1 hy).symm) ne
  | _ :: _ :: _, _, _ => simp [Group.isCyclic]

/-- Every member of a cyclic group lies on a cycle. -/
theorem transGen_of_isCyclic (mem : group ∈ ofLinked records) (cyclic : group.isCyclic) {m : Nat}
    (hm : m ∈ group.members) : Relation.TransGen (Links.Edge records) m m := by
  obtain ⟨x, hx, ne⟩ := exists_ne_of_isCyclic ((partitions_ofLinked records).nodup_members mem) cyclic m
  obtain ⟨there, back⟩ := (mem_members_iff_mutual mirrored mem hm).1 hx
  have step : Relation.TransGen (Links.Edge records) m x :=
    (Relation.reflTransGen_iff_eq_or_transGen.1 there).resolve_left ne
  exact step.trans_left back

/-- Where no record links to itself, a member that lies on a cycle has company. -/
theorem isCyclic_of_transGen (irreflexive : ∀ {i j}, Links.Edge records i j → j ≠ i)
    (mem : group ∈ ofLinked records) {m : Nat} (hm : m ∈ group.members)
    (cycle : Relation.TransGen (Links.Edge records) m m) : group.isCyclic := by
  obtain ⟨x, edge, back⟩ := Relation.TransGen.head'_iff.1 cycle
  have hx : x ∈ group.members := (mem_members_iff_mutual mirrored mem hm).2 ⟨.single edge, back⟩
  exact isCyclic_of_ne hx hm (irreflexive edge)

end Cyclic

/-! ## Finding the groups -/

theorem inRange_iff {records : Array ClassRecord} {lists : ClassRecord → List Nat} :
    inRange records lists ↔
      ∀ (i : Nat) (record : ClassRecord), records[i]? = some record →
        ∀ j ∈ lists record, j < records.size := by
  simp only [inRange, Array.all_eq_true_iff_forall_mem, List.all_eq_true, decide_eq_true_eq,
    Array.mem_iff_getElem?]
  exact ⟨fun h i record hi => h record ⟨i, hi⟩, fun h record ⟨i, hi⟩ => h i record hi⟩

theorem lt_of_leads {records : Array ClassRecord} {lists : ClassRecord → List Nat}
    (h : inRange records lists) {i j : Nat} (leads : Leads records lists i j) : j < records.size := by
  obtain ⟨record, hi, mem⟩ := leads
  exact inRange_iff.1 h i record hi j mem

theorem find_of_inRange {records : Array ClassRecord}
    (outgoing : inRange records ClassRecord.outgoing)
    (incoming : inRange records ClassRecord.incoming) :
    find records = .ok (markAll records (ofLinked records), ofLinked records) := by
  simp [find, outgoing, incoming]

theorem find_of_mirrored {records : Array ClassRecord} (mirrored : Links.Mirrored records) :
    find records = .ok (markAll records (ofLinked records), ofLinked records) := by
  apply find_of_inRange
  · exact inRange_iff.2 fun i record hi j mem => mirrored.lt_of_edge ⟨record, hi, mem⟩
  · exact inRange_iff.2 fun i record hi j mem =>
      Links.lt_of_edge_left ((mirrored.mem_incoming_iff hi).1 mem)

/-- The groups of connected records are the classes of mutually reachable records, and the cyclic
ones among them are those whose members lie on cycles. -/
theorem find_connect_mutual (records : Array ClassRecord) :
    ∃ grouped groups, find (Links.connect records) = .ok (grouped, groups) ∧
      (∀ i j, Links.Edge grouped i j ↔ Links.Edge (Links.connect records) i j) ∧
      (∀ k i, groupOf grouped i = some k ↔ InGroup groups k i) ∧
      (∀ i j, i < records.size → j < records.size →
        ((∃ k, InGroup groups k i ∧ InGroup groups k j) ↔
          Links.Reaches grouped i j ∧ Links.Reaches grouped j i)) ∧
      ∀ group ∈ groups,
        (group.isCyclic ↔ ∃ m ∈ group.members, Relation.TransGen (Links.Edge grouped) m m) ∧
        (group.isCyclic ↔ ∀ m ∈ group.members, Relation.TransGen (Links.Edge grouped) m m) := by
  have mirrored := Links.mirrored_connect records
  have partition := partitions_ofLinked (Links.connect records)
  refine ⟨_, _, find_of_mirrored mirrored, ?_, ?_, ?_, ?_⟩
  · intro i j
    rw [edge_markAll]
  · exact fun k i => partition.groupOf_markAll
  · intro i j hi hj
    rw [← Links.size_connect] at hi
    simp only [Links.Reaches, edge_markAll]
    constructor
    · rintro ⟨k, hi, hj⟩
      exact (inGroup_iff_mutual mirrored hi).1 hj
    · intro mutually
      obtain ⟨k, hi⟩ := partition.exists_inGroup hi
      exact ⟨k, hi, (inGroup_iff_mutual mirrored hi).2 mutually⟩
  · intro group mem
    rw [edge_markAll]
    have onCycle := fun m => transGen_of_isCyclic mirrored mem (m := m)
    have company := fun m => isCyclic_of_transGen mirrored Links.ne_of_edge_connect mem (m := m)
    obtain ⟨first, hfirst⟩ := List.exists_mem_of_ne_nil _ (partition.ne_nil _ mem)
    exact ⟨⟨fun cyclic => ⟨first, hfirst, onCycle first cyclic hfirst⟩,
        fun ⟨m, hm, cycle⟩ => company m hm cycle⟩,
      ⟨fun cyclic m hm => onCycle m cyclic hm, fun all => company first hfirst (all first hfirst)⟩⟩

/-- Finding groups changes no links, and a link leads to the same group if its end leads back, and
to an earlier group otherwise. -/
theorem find_connect_le (records : Array ClassRecord) :
    ∃ grouped groups, find (Links.connect records) = .ok (grouped, groups) ∧
      grouped.size = records.size ∧
      (∀ i j, Links.Edge grouped i j ↔ Links.Edge (Links.connect records) i j) ∧
      ∀ r t, Links.Edge (Links.connect records) r t →
        ∃ k l, groupOf grouped r = some k ∧ groupOf grouped t = some l ∧
          InGroup groups k r ∧ InGroup groups l t ∧
          l ≤ k ∧ (l = k ↔ Links.Reaches (Links.connect records) t r) := by
  have mirrored := Links.mirrored_connect records
  have partition := partitions_ofLinked (Links.connect records)
  refine ⟨_, _, find_of_mirrored mirrored, ?_, ?_, fun r t edge => ?_⟩
  · rw [size_markAll, Links.size_connect]
  · intro i j
    rw [edge_markAll]
  · obtain ⟨k, hk⟩ := partition.exists_inGroup (Links.lt_of_edge_left edge)
    obtain ⟨l, hl⟩ := partition.exists_inGroup (mirrored.lt_of_edge edge)
    refine ⟨k, l, (partition.groupOf_markAll).2 hk, (partition.groupOf_markAll).2 hl, hk, hl,
      le_of_edge mirrored hk hl edge, ?_⟩
    constructor
    · rintro rfl
      exact ((inGroup_iff_mutual mirrored hl).1 hk).1
    · intro back
      exact partition.inGroup_unique hl ((inGroup_iff_mutual mirrored hk).2 ⟨.single edge, back⟩)

def referring (name : Text) (references : List Text) : ClassRecord :=
  { fileName := name ++ ".class", className := name, classPath := name, references }

/-- Two records that refer to each other, and one that the first of them refers to. -/
def dependent : Array ClassRecord :=
  #[referring "A" ["B", "C"], referring "B" ["A"], referring "C" []]

theorem connect_dependent : Links.connect dependent =
    #[{ referring "A" ["B", "C"] with outgoing := [1, 2], incoming := [1] },
      { referring "B" ["A"] with outgoing := [0], incoming := [0] },
      { referring "C" [] with incoming := [0] }] := by
  simp only [Links.connect, Links.definitions, Links.targets, dependent, referring,
    List.zipIdx_cons, List.zipIdx_nil, List.foldl_cons, List.foldl_nil,
    Std.HashMap.getElem?_insert]
  decide +kernel

/-- The link between the first two records stays in their group, the one to the third record leads
to an earlier group. -/
theorem find_connect_le_dependent :
    ∃ grouped groups k l, find (Links.connect dependent) = .ok (grouped, groups) ∧
      Links.Edge grouped 0 1 ∧ groupOf grouped 0 = some k ∧ groupOf grouped 1 = some k ∧
      Links.Edge grouped 0 2 ∧ groupOf grouped 2 = some l ∧ l < k := by
  obtain ⟨grouped, groups, found, -, edges, ordered⟩ := find_connect_le dependent
  rw [connect_dependent] at edges ordered
  obtain ⟨k, k', atFirst, atSecond, -, -, -, same⟩ := ordered 0 1 ⟨_, rfl, by decide⟩
  obtain ⟨m, l, again, atThird, -, -, le, back⟩ := ordered 0 2 ⟨_, rfl, by decide⟩
  obtain rfl : k' = k := same.2 (.single ⟨_, rfl, by decide⟩)
  obtain rfl : m = k' := Option.some.inj (again.symm.trans atFirst)
  have ne : l ≠ m := by
    intro eq
    rcases Relation.ReflTransGen.cases_head (back.1 eq) with itself | ⟨j, ⟨record, third, mem⟩, -⟩
    · cases itself
    · cases third
      cases mem
  exact ⟨grouped, groups, m, l, found, (edges 0 1).2 ⟨_, rfl, by decide⟩, atFirst, atSecond,
    (edges 0 2).2 ⟨_, rfl, by decide⟩, atThird, Nat.lt_of_le_of_ne le ne⟩

end Groups

end ClassOrder
