import ClassOrder.Graph.Links
import Mathlib.Logic.Relation

/-!
# The graph of linked records

What `Links.connect` makes of the records: links lead to other records of the same array
(`lt_of_edge_connect`, `ne_of_edge_connect`), and the incoming links of a record are the outgoing
ones seen from the other end (`mem_incoming_connect`).
-/

namespace ClassOrder

namespace Links

/-- A record links to another one. -/
def Edge (records : Array ClassRecord) (i j : Nat) : Prop :=
  ∃ record, records[i]? = some record ∧ j ∈ record.outgoing

/-- A path of links of any length leads from one record to another. -/
abbrev Reaches (records : Array ClassRecord) : Nat → Nat → Prop :=
  Relation.ReflTransGen (Edge records)

/-! ## Definitions of class paths -/

/-- A path is defined by one of the records that were looked at, or was defined before. -/
theorem getElem?_foldl_insert (records : List (ClassRecord × Nat)) (known : Std.HashMap Text Nat)
    {path : Text} {i : Nat}
    (h : (records.foldl (fun known (record, i) => known.insert record.classPath i) known)[path]? =
      some i) :
    known[path]? = some i ∨ ∃ record, (record, i) ∈ records ∧ record.classPath = path := by
  induction records generalizing known with
  | nil => exact .inl h
  | cons entry records ih =>
    obtain ⟨record, j⟩ := entry
    rcases ih _ h with before | ⟨other, mem, eq⟩
    · rw [Std.HashMap.getElem?_insert] at before
      split at before
      · next same =>
        cases before
        exact .inr ⟨record, List.mem_cons_self .., eq_of_beq same⟩
      · exact .inl before
    · exact .inr ⟨other, List.mem_cons_of_mem _ mem, eq⟩

/-- A path is defined by a record that has it. -/
theorem exists_of_definitions {records : Array ClassRecord} {path : Text} {i : Nat}
    (h : (definitions records)[path]? = some i) :
    ∃ record, records[i]? = some record ∧ record.classPath = path := by
  rcases getElem?_foldl_insert _ _ h with none | ⟨record, mem, eq⟩
  · simp at none
  · refine ⟨record, ?_, eq⟩
    rw [← Array.getElem?_toList]
    exact List.mem_zipIdx_iff_getElem?.1 mem

/-! ## Incoming links -/

theorem getElem?_addSource (sources : Array (List Nat)) (i j : Nat) (targets : List Nat) :
    (addSource sources i targets)[j]? =
      sources[j]?.map (List.replicate (targets.count j) i ++ ·) := by
  unfold addSource
  induction targets generalizing sources with
  | nil => simp
  | cons target targets ih =>
    rw [List.foldl_cons, ih, Array.getElem?_modify, List.count_cons]
    by_cases h : target = j
    · simp only [h, if_true, beq_self_eq_true, Option.map_map]
      congr 1
      funext list
      simp [List.replicate_succ', List.append_assoc]
    · simp [h]

/-- The sources of a position: every position as often as its list holds that position. -/
theorem getElem?_transpose (lists : List (List Nat)) {j : Nat} (h : j < lists.length) :
    (transpose lists)[j]? =
      some (lists.zipIdx.flatMap fun (targets, i) => List.replicate (targets.count j) i) := by
  unfold transpose
  generalize lists.zipIdx = entries
  induction entries with
  | nil => simp [h]
  | cons entry entries ih => rw [List.foldr_cons, getElem?_addSource, ih]; rfl

theorem mem_transpose {lists : List (List Nat)} {i j : Nat} (h : j < lists.length) :
    i ∈ (transpose lists).getD j [] ↔ ∃ targets, lists[i]? = some targets ∧ j ∈ targets := by
  rw [Array.getD_eq_getD_getElem?, getElem?_transpose lists h, Option.getD_some]
  simp only [List.mem_flatMap, List.mem_replicate, Prod.exists, List.mem_zipIdx_iff_getElem?]
  constructor
  · rintro ⟨targets, k, hk, count, rfl⟩
    exact ⟨targets, hk, List.count_pos_iff.1 (Nat.pos_of_ne_zero count)⟩
  · rintro ⟨targets, hi, mem⟩
    exact ⟨targets, i, hi, Nat.ne_of_gt (List.count_pos_iff.2 mem), rfl⟩

/-! ## Linked records -/

theorem size_connect (records : Array ClassRecord) : (connect records).size = records.size := by
  simp [connect]

/-- The outgoing links of every record. -/
def outgoingLists (records : Array ClassRecord) : List (List Nat) :=
  (records.mapIdx (targets (definitions records))).toList

theorem getElem?_connect (records : Array ClassRecord) (i : Nat) :
    (connect records)[i]? = records[i]?.map fun record =>
      { record with
        outgoing := targets (definitions records) i record
        incoming := (transpose (outgoingLists records)).getD i [] } := by
  have lists : ((records.mapIdx fun i record =>
      { record with outgoing := targets (definitions records) i record }).toList.map
        ClassRecord.outgoing) = outgoingLists records := by
    apply List.ext_getElem?
    intro k
    simp [outgoingLists, Function.comp_def]
  unfold connect
  simp only [lists, Array.getElem?_mapIdx, Option.map_map]
  rfl

theorem edge_connect_iff {records : Array ClassRecord} {i j : Nat} :
    Edge (connect records) i j ↔
      ∃ record, records[i]? = some record ∧ j ∈ targets (definitions records) i record := by
  simp only [Edge, getElem?_connect, Option.map_eq_some_iff]
  constructor
  · rintro ⟨_, ⟨record, hi, rfl⟩, mem⟩
    exact ⟨record, hi, mem⟩
  · rintro ⟨record, hi, mem⟩
    exact ⟨_, ⟨record, hi, rfl⟩, mem⟩

/-- Links lead to records. -/
theorem lt_of_edge_connect {records : Array ClassRecord} {i j : Nat}
    (h : Edge (connect records) i j) : j < (connect records).size := by
  obtain ⟨record, -, mem⟩ := edge_connect_iff.1 h
  obtain ⟨name, -, known⟩ := List.mem_filterMap.1 (List.mem_filter.1 mem).1
  obtain ⟨target, hj, -⟩ := exists_of_definitions known
  rw [size_connect]
  exact (Array.getElem?_eq_some_iff.1 hj).1

/-- No record links to itself. -/
theorem ne_of_edge_connect {records : Array ClassRecord} {i j : Nat}
    (h : Edge (connect records) i j) : j ≠ i := by
  obtain ⟨record, -, mem⟩ := edge_connect_iff.1 h
  simpa using (List.mem_filter.1 mem).2

/-- The incoming links of a record are the links that lead to it. -/
theorem mem_incoming_connect {records : Array ClassRecord} {i j : Nat} {record : ClassRecord}
    (h : (connect records)[j]? = some record) :
    i ∈ record.incoming ↔ Edge (connect records) i j := by
  rw [getElem?_connect, Option.map_eq_some_iff] at h
  obtain ⟨target, hj, rfl⟩ := h
  have lt : j < (outgoingLists records).length := by
    simpa [outgoingLists] using (Array.getElem?_eq_some_iff.1 hj).1
  rw [mem_transpose lt, edge_connect_iff]
  simp only [outgoingLists, Array.getElem?_toList, Array.getElem?_mapIdx, Option.map_eq_some_iff]
  constructor
  · rintro ⟨_, ⟨source, hi, rfl⟩, mem⟩
    exact ⟨source, hi, mem⟩
  · rintro ⟨source, hi, mem⟩
    exact ⟨_, ⟨source, hi, rfl⟩, mem⟩

/-! ## Mirrored links -/

/-- The links of records lead to records, and the incoming ones are the outgoing ones seen from the
other end. -/
structure Mirrored (records : Array ClassRecord) : Prop where
  lt_of_edge : ∀ {i j}, Edge records i j → j < records.size
  mem_incoming_iff : ∀ {i j record}, records[j]? = some record →
    (i ∈ record.incoming ↔ Edge records i j)

theorem mirrored_connect (records : Array ClassRecord) : Mirrored (connect records) where
  lt_of_edge := lt_of_edge_connect
  mem_incoming_iff := mem_incoming_connect

theorem lt_of_edge_left {records : Array ClassRecord} {i j : Nat} (h : Edge records i j) :
    i < records.size := by
  obtain ⟨record, hi, -⟩ := h
  exact (Array.getElem?_eq_some_iff.1 hi).1

end Links

end ClassOrder
