import ClassOrder.Proofs.Connections
import ClassOrder.Proofs.Groups

/-!
# Shadowed records

A record is shadowed if a later one has the same class path. Nothing links to it, so it is in a group
of its own (`find_connect_shadowed`). The log has one warning for each record whose class path was
defined before, with the file that defined it last (`forall₂_shadowings`).
-/

namespace ClassOrder

namespace Links

variable {records : Array ClassRecord} {i j : Nat}

/-- Two records have one class path. -/
def SamePath (records : Array ClassRecord) (i j : Nat) : Prop :=
  ∃ path, records[i]?.map ClassRecord.classPath = some path ∧
    records[j]?.map ClassRecord.classPath = some path

/-- The record is the last one before another that has the class path of that one. -/
def IsPrevious (records : Array ClassRecord) (j i : Nat) : Prop :=
  j < i ∧ SamePath records j i ∧ ∀ k, k < i → SamePath records k i → k ≤ j

/-- A later record has the same class path. -/
def IsShadowed (records : Array ClassRecord) (i : Nat) : Prop := ∃ j, i < j ∧ SamePath records i j

theorem IsShadowed.lt_size (h : IsShadowed records i) : i < records.size := by
  obtain ⟨_, -, _, at_i, -⟩ := h
  obtain ⟨_, here, -⟩ := Option.map_eq_some_iff.1 at_i
  exact (Array.getElem?_eq_some_iff.1 here).1

/-! ## Links to shadowed records -/

theorem not_edge_connect_of_isShadowed (h : IsShadowed records i) (r : Nat) :
    ¬ Edge (connect records) r i := by
  intro edge
  obtain ⟨record, -, mem⟩ := edge_connect_iff.1 edge
  obtain ⟨name, -, known⟩ := List.mem_filterMap.1 (List.mem_filter.1 mem).1
  obtain ⟨here, latest⟩ := getElem?_definitions.1 known
  obtain ⟨j, lt, path, at_i, at_j⟩ := h
  rw [at_i, Option.some_inj] at here
  exact Nat.not_le.2 lt (latest j (here ▸ at_j))

theorem incoming_connect_of_isShadowed (h : IsShadowed records i) {record : ClassRecord}
    (here : (connect records)[i]? = some record) : record.incoming = [] :=
  List.eq_nil_iff_forall_not_mem.2 fun r mem =>
    not_edge_connect_of_isShadowed h r ((mem_incoming_connect here).1 mem)

theorem eq_of_reaches_of_isShadowed (h : IsShadowed records i)
    (reached : Reaches (connect records) j i) : j = i := by
  rcases Relation.ReflTransGen.cases_tail reached with eq | ⟨r, -, edge⟩
  · exact eq.symm
  · exact absurd edge (not_edge_connect_of_isShadowed h r)

/-! ## Warnings -/

/-- A warning about two records with one class path. -/
def Warns (records : Array ClassRecord) (pair : Nat × Nat) (line : LogLine) : Prop :=
  ∃ earlier record, records[pair.1]? = some earlier ∧ records[pair.2]? = some record ∧
    line = ⟨.warning, "Class " ++ record.classPath ++ " is defined by both " ++ earlier.fileName ++
      " and " ++ record.fileName ++ "; using " ++ record.fileName ++ "."⟩

/-- The record that defines the class path of another one until that one does. -/
def previous? (records : List ClassRecord) (i : Nat) : Option Nat :=
  records[i]?.bind fun record =>
    (lastPositions ((records.take i).map ClassRecord.classPath))[record.classPath]?

/-- The records whose class paths were defined before, behind those that last defined them. -/
def redefinitions (records : List ClassRecord) : List (Nat × Nat) :=
  (List.range records.length).filterMap fun i => (previous? records i).map (·, i)

section Redefinitions

variable {records : List ClassRecord} {i j k : Nat}

theorem previous?_eq_some_iff : previous? records i = some j ↔ IsPrevious records.toArray j i := by
  rw [IsPrevious]
  cases here : records[i]? with
  | none => simp [previous?, SamePath, here]
  | some record =>
    have earlier : ∀ k, ((records.take i).map ClassRecord.classPath)[k]? = some record.classPath ↔
        k < i ∧ SamePath records.toArray k i := by
      intro k
      simp only [List.getElem?_map, List.getElem?_take, SamePath, List.getElem?_toArray, here]
      split_ifs with lt <;> simp [lt]
    simp only [previous?, here, Option.bind_some, getElem?_lastPositions, earlier, and_assoc, and_imp]

theorem mem_redefinitions : (j, i) ∈ redefinitions records ↔ previous? records i = some j := by
  simp only [redefinitions, List.mem_filterMap, List.mem_range, Option.map_eq_some_iff,
    Prod.mk.injEq]
  constructor
  · rintro ⟨_, -, _, previous, rfl, rfl⟩
    exact previous
  · intro previous
    obtain ⟨record, here, -⟩ := Option.bind_eq_some_iff.1 previous
    exact ⟨i, (List.getElem?_eq_some_iff.1 here).1, j, previous, rfl, rfl⟩

theorem pairwise_redefinitions (records : List ClassRecord) :
    ((redefinitions records).map Prod.snd).Pairwise (· < ·) := by
  rw [List.pairwise_map, redefinitions, List.pairwise_filterMap]
  refine List.pairwise_lt_range.imp fun {i k} lt pair made pair' made' => ?_
  obtain ⟨_, -, rfl⟩ := Option.map_eq_some_iff.1 made
  obtain ⟨_, -, rfl⟩ := Option.map_eq_some_iff.1 made'
  exact lt

theorem exists_lastPositions {paths : List Text} {path : Text} (mem : path ∈ paths) :
    ∃ i, (lastPositions paths)[path]? = some i := by
  induction paths using List.reverseRecOn with
  | nil => simp at mem
  | append_singleton paths last ih =>
    rw [lastPositions_append, Std.HashMap.getElem?_insert]
    split_ifs with same
    · exact ⟨_, rfl⟩
    · refine ih ((List.mem_append.1 mem).resolve_right fun here => same ?_)
      exact beq_iff_eq.2 (List.mem_singleton.1 here).symm

/-- A record has a pair exactly if there is an earlier one with its class path. -/
theorem mem_map_snd_redefinitions : i ∈ (redefinitions records).map Prod.snd ↔
    ∃ j, j < i ∧ SamePath records.toArray j i := by
  simp only [List.mem_map, Prod.exists, exists_eq_right, mem_redefinitions]
  constructor
  · rintro ⟨j, previous⟩
    obtain ⟨lt, same, -⟩ := previous?_eq_some_iff.1 previous
    exact ⟨j, lt, same⟩
  · rintro ⟨j, lt, path, at_j, at_i⟩
    rw [List.getElem?_toArray, Option.map_eq_some_iff] at at_j at_i
    obtain ⟨record, here, rfl⟩ := at_i
    obtain ⟨earlier, there, same⟩ := at_j
    rw [previous?, here, Option.bind_some]
    refine exists_lastPositions (List.mem_map.2 ⟨earlier, ?_, same⟩)
    exact List.mem_of_getElem? ((List.getElem?_take_of_lt lt).trans there)

/-! ## The log -/

/-- The last file to define each class path. -/
def lastFiles (records : List ClassRecord) : Std.HashMap Text Text :=
  records.foldl (fun files record => files.insert record.classPath record.fileName) ∅

theorem getElem?_lastFiles (records : List ClassRecord) (path : Text) :
    (lastFiles records)[path]? = ((lastPositions (records.map ClassRecord.classPath))[path]?).bind
      fun i => records[i]?.map ClassRecord.fileName := by
  induction records using List.reverseRecOn with
  | nil => simp [lastFiles, lastPositions]
  | append_singleton records record ih =>
    rw [lastFiles, List.foldl_append, List.foldl_cons, List.foldl_nil, ← lastFiles, List.map_append,
      List.map_singleton, lastPositions_append, Std.HashMap.getElem?_insert,
      Std.HashMap.getElem?_insert]
    split_ifs with same
    · simp
    · rw [ih]
      cases known : (lastPositions (records.map ClassRecord.classPath))[path]? with
      | none => rfl
      | some i =>
        have lt := (List.getElem?_eq_some_iff.1 (getElem?_lastPositions.1 known).1).1
        rw [List.length_map] at lt
        simp only [Option.bind_some, List.getElem?_append_left lt]

theorem shadowings_append (files : Std.HashMap Text Text) (records more : List ClassRecord) :
    shadowings files (records ++ more) = shadowings files records ++
      shadowings (records.foldl (fun files record => files.insert record.classPath record.fileName)
        files) more := by
  induction records generalizing files with
  | nil => rfl
  | cons record records ih =>
    rw [List.cons_append, shadowings, shadowings, ih, List.foldl_cons, List.append_assoc]

theorem previous?_append (more : List ClassRecord) (lt : i < records.length) :
    previous? (records ++ more) i = previous? records i := by
  rw [previous?, previous?, List.getElem?_append_left lt,
    List.take_append_of_le_length (Nat.le_of_lt lt)]

theorem redefinitions_append (records : List ClassRecord) (record : ClassRecord) :
    redefinitions (records ++ [record]) = redefinitions records ++
      ((lastPositions (records.map ClassRecord.classPath))[record.classPath]?.map
        (·, records.length)).toList := by
  have newest : previous? (records ++ [record]) records.length =
      (lastPositions (records.map ClassRecord.classPath))[record.classPath]? := by
    rw [previous?, List.getElem?_concat_length, Option.bind_some, List.take_left]
  rw [redefinitions, List.length_append, List.length_singleton, List.range_succ,
    List.filterMap_append, redefinitions]
  congr 1
  · refine List.filterMap_congr fun i mem => ?_
    rw [previous?_append _ (List.mem_range.1 mem)]
  · rw [List.filterMap_cons, List.filterMap_nil, newest]
    cases (lastPositions (records.map ClassRecord.classPath))[record.classPath]? <;> rfl

theorem Warns.append {pair : Nat × Nat} {line : LogLine} (h : Warns records.toArray pair line)
    (more : List ClassRecord) : Warns (records ++ more).toArray pair line := by
  obtain ⟨earlier, record, there, here, eq⟩ := h
  rw [List.getElem?_toArray] at there here
  refine ⟨earlier, record, ?_, ?_, eq⟩
  · rw [List.getElem?_toArray,
      List.getElem?_append_left (List.getElem?_eq_some_iff.1 there).1, there]
  · rw [List.getElem?_toArray,
      List.getElem?_append_left (List.getElem?_eq_some_iff.1 here).1, here]

/-- There is one warning for each pair, in the same order. -/
theorem forall₂_shadowings (records : List ClassRecord) :
    List.Forall₂ (Warns records.toArray) (redefinitions records) (shadowings ∅ records) := by
  -- From the front, as the records are taken up: the newest one adds its pair and its warning.
  induction records using List.reverseRecOn with
  | nil => exact .nil
  | append_singleton records record ih =>
    rw [redefinitions_append, shadowings_append]
    refine List.rel_append (ih.imp fun _ _ warns => warns.append [record]) ?_
    rw [shadowings, shadowings, List.append_nil, ← lastFiles, getElem?_lastFiles]
    cases known : (lastPositions (records.map ClassRecord.classPath))[record.classPath]? with
    | none => exact .nil
    | some i =>
      have there := (getElem?_lastPositions.1 known).1
      rw [List.getElem?_map, Option.map_eq_some_iff] at there
      obtain ⟨earlier, there, -⟩ := there
      rw [Option.bind_some, there]
      refine .cons ⟨earlier, record, ?_, ?_, rfl⟩ .nil
      · rw [List.getElem?_toArray,
          List.getElem?_append_left (List.getElem?_eq_some_iff.1 there).1, there]
      · rw [List.getElem?_toArray, List.getElem?_concat_length]

end Redefinitions

end Links

namespace Groups

open Links

/-- A note about the group leaves the incoming links as they are. -/
theorem exists_incoming_of_markAll {records : Array ClassRecord} {groups : List Group} {i : Nat}
    {record : ClassRecord} (here : (markAll records groups)[i]? = some record) :
    ∃ unmarked, records[i]? = some unmarked ∧ unmarked.incoming = record.incoming := by
  have same : (markAll records groups).map ClassRecord.incoming =
      records.map ClassRecord.incoming := map_markAll (fun _ _ => rfl) records groups
  have at_i := congrArg (·[i]?) same
  simp only [Array.getElem?_map, here, Option.map_some] at at_i
  exact Option.map_eq_some_iff.1 at_i.symm

theorem mem_members_iff_eq_of_isShadowed {records : Array ClassRecord} {i : Nat}
    (h : IsShadowed records i) {group : Group} (mem : group ∈ ofLinked (connect records))
    (hi : i ∈ group.members) (j : Nat) : j ∈ group.members ↔ j = i := by
  rw [mem_members_iff_mutual (mirrored_connect records) mem hi]
  constructor
  · rintro ⟨-, back⟩
    exact eq_of_reaches_of_isShadowed h back
  · rintro rfl
    exact ⟨.refl, .refl⟩

theorem eq_singleton_of_isShadowed {records : Array ClassRecord} {i : Nat}
    (h : IsShadowed records i) {group : Group} (mem : group ∈ ofLinked (connect records))
    (hi : i ∈ group.members) : group = ⟨[i]⟩ := by
  have nodup := (partitions_ofLinked (connect records)).nodup_members mem
  have same := (List.perm_ext_iff_of_nodup nodup (List.nodup_singleton i)).2 fun j => by
    rw [mem_members_iff_eq_of_isShadowed h mem hi, List.mem_singleton]
  exact congrArg Group.mk (List.perm_singleton.1 same)

/-- Nothing links to a shadowed record, which makes a group of its own, so that no cyclic group has
it. The log has one warning for each record that shadows an earlier one, in the order of the records,
with the file of the last such record first. -/
theorem find_connect_shadowed (records : Array ClassRecord) :
    ∃ grouped groups, find (connect records) = .ok (grouped, groups) ∧
      (∀ i, IsShadowed records i →
        (∀ r, ¬ Edge grouped r i) ∧
        (∀ record, grouped[i]? = some record → record.incoming = []) ∧
        (∃ k, groupOf grouped i = some k ∧ groups[k]? = some ⟨[i]⟩) ∧
        ∀ group ∈ groups, group.isCyclic → i ∉ group.members) ∧
      ∃ pairs : List (Nat × Nat),
        (pairs.map Prod.snd).Pairwise (· < ·) ∧
        (∀ i, i ∈ pairs.map Prod.snd ↔ ∃ j, j < i ∧ SamePath records j i) ∧
        (∀ pair ∈ pairs, IsPrevious records pair.1 pair.2) ∧
        List.Forall₂ (Warns records) pairs (Links.log records) := by
  have partition := partitions_ofLinked (connect records)
  refine ⟨_, _, find_of_mirrored (mirrored_connect records), ?_, redefinitions records.toList,
    pairwise_redefinitions _, fun i => mem_map_snd_redefinitions, ?_, forall₂_shadowings _⟩
  · intro i shadowed
    rw [edge_markAll]
    refine ⟨not_edge_connect_of_isShadowed shadowed, ?_, ?_, ?_⟩
    · intro record here
      obtain ⟨linked, there, same⟩ := exists_incoming_of_markAll here
      rw [← same]
      exact incoming_connect_of_isShadowed shadowed there
    · obtain ⟨k, group, at_k, hi⟩ :=
        partition.exists_inGroup (size_connect records ▸ shadowed.lt_size)
      refine ⟨k, partition.groupOf_markAll.2 ⟨group, at_k, hi⟩, ?_⟩
      rw [at_k, eq_singleton_of_isShadowed shadowed (List.mem_of_getElem? at_k) hi]
    · intro group mem cyclic hi
      rw [eq_singleton_of_isShadowed shadowed mem hi] at cyclic
      exact absurd cyclic Bool.false_ne_true
  · rintro ⟨j, i⟩ mem
    exact previous?_eq_some_iff.1 (mem_redefinitions.1 mem)

/-- Three records of one class path, which all refer to it and to a fourth record, which refers back
to it. -/
def redefined : Array ClassRecord :=
  #[{ fileName := "First.class", className := "X", classPath := "p/X",
      references := [("p/X" : Text), ("p/U" : Text)] },
    { fileName := "Second.class", className := "X", classPath := "p/X",
      references := [("p/U" : Text), ("p/X" : Text)] },
    { fileName := "User.class", className := "U", classPath := "p/U",
      references := [("p/X" : Text)] },
    { fileName := "Third.class", className := "X", classPath := "p/X",
      references := [("p/X" : Text), ("p/U" : Text)] }]

theorem find_connect_shadowed_redefined :
    (IsShadowed redefined 0 ∧ IsShadowed redefined 1) ∧
      ∃ grouped groups, find (connect redefined) = .ok (grouped, groups) ∧
        (∃ k, groupOf grouped 0 = some k ∧ groups[k]? = some ⟨[0]⟩) ∧
        (∃ k, groupOf grouped 1 = some k ∧ groups[k]? = some ⟨[1]⟩) ∧
        ∀ group ∈ groups, group.isCyclic → 0 ∉ group.members ∧ 1 ∉ group.members := by
  have first : IsShadowed redefined 0 := ⟨3, by decide, "p/X", by decide, by decide⟩
  have second : IsShadowed redefined 1 := ⟨3, by decide, "p/X", by decide, by decide⟩
  obtain ⟨grouped, groups, found, alone, -⟩ := find_connect_shadowed redefined
  obtain ⟨-, -, single, outside⟩ := alone 0 first
  obtain ⟨-, -, single', outside'⟩ := alone 1 second
  exact ⟨⟨first, second⟩, grouped, groups, found, single, single',
    fun group mem cyclic => ⟨outside group mem cyclic, outside' group mem cyclic⟩⟩

end Groups

end ClassOrder
