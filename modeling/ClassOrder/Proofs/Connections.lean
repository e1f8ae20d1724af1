import ClassOrder.Proofs.InPlace
import Mathlib.Data.List.Induction
import Mathlib.Data.List.Nodup

/-!
# Linking records in place

The three passes of `Links.connectInPlace` do what `Links.connect` does (`connectInPlace_eq`).

The links that come out depend on nothing but the class paths and the references of the records
(`map_links_connect_congr`). References without repetitions give links without repetitions, and then
the sources of a record increase (`nodup_and_pairwise_of_mem_connect`).
-/

namespace ClassOrder

namespace Links

/-! ## Definitions of class paths -/

/-- The position is the last one at which a record has the path. -/
def IsLast (records : Array ClassRecord) (path : Text) (i : Nat) : Prop :=
  records[i]?.map ClassRecord.classPath = some path ∧
    ∀ j, records[j]?.map ClassRecord.classPath = some path → j ≤ i

/-- The last position of each path. -/
def lastPositions (paths : List Text) : Std.HashMap Text Nat :=
  paths.zipIdx.foldl (fun known (path, i) => known.insert path i) ∅

theorem definitions_eq (records : Array ClassRecord) :
    definitions records = lastPositions (records.toList.map ClassRecord.classPath) := by
  rw [definitions, lastPositions, List.zipIdx_map, List.foldl_map]
  rfl

theorem lastPositions_append (paths : List Text) (path : Text) :
    lastPositions (paths ++ [path]) = (lastPositions paths).insert path paths.length := by
  simp [lastPositions, List.zipIdx_append, List.foldl_append]

theorem getElem?_lastPositions {paths : List Text} {path : Text} {i : Nat} :
    (lastPositions paths)[path]? = some i ↔
      paths[i]? = some path ∧ ∀ j, paths[j]? = some path → j ≤ i := by
  -- The paths are taken up from the front, as the fold does: the newest one wins.
  induction paths using List.reverseRecOn with
  | nil => simp [lastPositions]
  | append_singleton paths last ih =>
    have at_last : (paths ++ [last])[paths.length]? = some last := List.getElem?_concat_length
    have bound : ∀ {j : Nat}, (paths ++ [last])[j]? = some path → j ≤ paths.length := by
      intro j hj
      have lt := (List.getElem?_eq_some_iff.1 hj).1
      rw [List.length_append, List.length_singleton] at lt
      omega
    rw [lastPositions_append, Std.HashMap.getElem?_insert]
    by_cases same : last = path
    · subst same
      rw [if_pos (beq_self_eq_true _), Option.some_inj]
      constructor
      · intro eq
        subst eq
        exact ⟨at_last, fun j hj => bound hj⟩
      · intro ⟨hi, latest⟩
        exact Nat.le_antisymm (latest _ at_last) (bound hi)
    · have before : ∀ j : Nat, (paths ++ [last])[j]? = some path ↔ paths[j]? = some path := by
        intro j
        rcases Nat.lt_trichotomy j paths.length with lt | rfl | gt
        · rw [List.getElem?_append_left lt]
        · simp [same]
        · have outside : paths[j]? = none := List.getElem?_eq_none (Nat.le_of_lt gt)
          rw [outside]
          exact iff_of_false (fun hj => Nat.not_le.2 gt (bound hj)) nofun
      rw [if_neg (by simpa using same), ih]
      simp only [before]

theorem getElem?_definitions {records : Array ClassRecord} {path : Text} {i : Nat} :
    (definitions records)[path]? = some i ↔ IsLast records path i := by
  rw [definitions_eq, getElem?_lastPositions]
  simp only [IsLast, List.getElem?_map, Array.getElem?_toList]

/-- No two paths lead to one record. -/
theorem eq_of_definitions {records : Array ClassRecord} {path path' : Text} {i : Nat}
    (h : (definitions records)[path]? = some i) (h' : (definitions records)[path']? = some i) :
    path = path' := by
  have eq := (getElem?_definitions.1 h).1
  rw [(getElem?_definitions.1 h').1] at eq
  exact (Option.some_inj.1 eq).symm

/-! ## Linked records, pass by pass -/

/-- The links of a record with these references. -/
def resolved (known : Std.HashMap Text Nat) (i : Nat) (references : List Text) : List Nat :=
  (references.filterMap (known[·]?)).filter (· != i)

/-- The outgoing links of the record at a position. -/
def outgoingAt (records : Array ClassRecord) (i : Nat) : List Nat :=
  records[i]?.elim [] ClassRecord.outgoing

/-- The positions below `k`, each as often as its record links to `j`. -/
def sourcesBelow (records : Array ClassRecord) (k j : Nat) : List Nat :=
  (List.range k).flatMap fun i => List.replicate ((outgoingAt records i).count j) i

/-- The records with their outgoing links. -/
def linked (records : Array ClassRecord) : Array ClassRecord :=
  records.mapIdx fun i record =>
    { record with outgoing := resolved (definitions records) i record.references }

theorem size_linked (records : Array ClassRecord) : (linked records).size = records.size := by
  simp [linked]

theorem mem_outgoingAt {records : Array ClassRecord} {i j : Nat} :
    j ∈ outgoingAt records i ↔ Edge records i j := by
  rw [outgoingAt, Edge]
  cases records[i]? <;> simp

theorem outgoingAt_linked (records : Array ClassRecord) (i : Nat) :
    outgoingAt (linked records) i =
      (records[i]?.map ClassRecord.references).elim [] (resolved (definitions records) i) := by
  rw [outgoingAt, linked, Array.getElem?_mapIdx]
  cases records[i]? <;> rfl

theorem sourcesBelow_succ (records : Array ClassRecord) (k j : Nat) :
    sourcesBelow records (k + 1) j =
      sourcesBelow records k j ++ List.replicate ((outgoingAt records k).count j) k := by
  simp [sourcesBelow, List.range_succ, List.flatMap_append]

theorem getD_transpose (records : Array ClassRecord) {j : Nat} (h : j < records.size) :
    (transpose (records.toList.map ClassRecord.outgoing)).getD j [] =
      sourcesBelow records records.size j := by
  have entries : (records.toList.map ClassRecord.outgoing).zipIdx =
      (List.range records.size).map fun i => (outgoingAt records i, i) := by
    apply List.ext_getElem?
    intro i
    by_cases lt : i < records.size
    · simp [outgoingAt, lt]
    · simp [lt]
  rw [Array.getD_eq_getD_getElem?, getElem?_transpose _ (by simpa using h), entries,
    List.flatMap_map]
  rfl

/-- Linking sets the outgoing links of all records, and then their incoming ones. -/
theorem connect_eq_mapIdx_linked (records : Array ClassRecord) :
    connect records = (linked records).mapIdx fun j record =>
      { record with incoming := sourcesBelow (linked records) records.size j } := by
  apply Array.ext_getElem?
  intro j
  change ((linked records).mapIdx fun j record => { record with
    incoming := (transpose ((linked records).toList.map ClassRecord.outgoing)).getD j [] })[j]? = _
  rw [Array.getElem?_mapIdx, Array.getElem?_mapIdx]
  by_cases lt : j < (linked records).size
  · rw [getD_transpose _ lt, size_linked]
  · rw [Array.getElem?_eq_none (by omega)]
    rfl

theorem outgoingAt_connect (records : Array ClassRecord) :
    outgoingAt (connect records) = outgoingAt (linked records) := by
  funext i
  rw [connect_eq_mapIdx_linked, outgoingAt, outgoingAt, Array.getElem?_mapIdx]
  cases (linked records)[i]? <;> rfl

/-! ## The passes come to their end -/

section Passes

variable {records : Array ClassRecord}

theorem mapIdx_congr {f g : Nat → ClassRecord → ClassRecord}
    (h : ∀ i record, records[i]? = some record → f i record = g i record) :
    records.mapIdx f = records.mapIdx g := by
  apply Array.ext_getElem?
  intro i
  rw [Array.getElem?_mapIdx, Array.getElem?_mapIdx]
  exact Option.map_congr fun record here => h i record here

theorem mapIdx_eq_self {f : Nat → ClassRecord → ClassRecord} (h : ∀ i record, f i record = record) :
    records.mapIdx f = records := by
  rw [mapIdx_congr fun i record _ => h i record]
  apply Array.ext_getElem?
  simp

theorem alter_eq_mapIdx {i : Nat} (h : i < records.size) (f : ClassRecord → ClassRecord) :
    ArenaM.alter i f records =
      .ok () (records.mapIdx fun j record => if i = j then f record else record) := by
  have changed : records.modify i f =
      records.mapIdx fun j record => if i = j then f record else record := by
    apply Array.ext_getElem?
    intro j
    rw [Array.getElem?_modify, Array.getElem?_mapIdx]
    split <;> simp
  rw [ArenaM.alter_eq_ok h, changed]

theorem recordAt_eq_ok {i : Nat} {record : ClassRecord} (h : records[i]? = some record) :
    ArenaM.recordAt i records = .ok record records := by
  rw [ArenaM.recordAt, ArenaM.asks, ClassRecord.lookup, h]

/-- A loop over positions leads from the first of some arenas to the last one, if each round leads
from one to the next. -/
theorem forM_range_of_rounds {round : Nat → ArenaM Unit} {arena : Nat → Array ClassRecord} {n : Nat}
    (h : ∀ i < n, round i (arena i) = .ok () (arena (i + 1))) :
    (List.range n).forM round (arena 0) = .ok () (arena n) := by
  induction n with
  | zero => rfl
  | succ n ih =>
    have earlier := ih fun i lt => h i (Nat.lt_succ_of_lt lt)
    have last : List.forM [n] round (arena n) = .ok () (arena (n + 1)) :=
      bind_of_ok (h n (Nat.lt_succ_self n)) _
    rw [List.range_succ]
    exact (congrFun List.forM_append _).trans ((bind_of_ok earlier _).trans last)

/-- A loop in which every round changes its own record changes all records. -/
theorem forM_range_of_changes {round : Nat → ArenaM Unit} {f : Nat → ClassRecord → ClassRecord}
    (h : ∀ {arena : Array ClassRecord} {i : Nat}, i < arena.size → round i arena =
      .ok () (arena.mapIdx fun j record => if i = j then f i record else record)) :
    (List.range records.size).forM round records = .ok () (records.mapIdx f) := by
  let arena (k : Nat) := records.mapIdx fun i record => if i < k then f i record else record
  have first : arena 0 = records := mapIdx_eq_self (by simp)
  have last : arena records.size = records.mapIdx f :=
    mapIdx_congr fun i record here => if_pos (Array.getElem?_eq_some_iff.1 here).1
  have rounds : ∀ i < records.size, round i (arena i) = .ok () (arena (i + 1)) := by
    intro i lt
    rw [h (by simpa [arena] using lt), Array.mapIdx_mapIdx]
    congr 2
    funext j record
    by_cases here : i = j
    · subst here
      simp
    · have still : j < i + 1 ↔ j < i := by omega
      simp [here, still]
  have run := forM_range_of_rounds rounds
  rwa [first, last] at run

theorem resolved_cons (known : Std.HashMap Text Nat) (i : Nat) (name : Text) (names : List Text) :
    resolved known i (name :: names) = resolved known i [name] ++ resolved known i names := by
  rw [← List.singleton_append, resolved, List.filterMap_append, List.filter_append]
  rfl

/-- Following a name adds what it resolves to. -/
theorem follow_eq_ok (known : Std.HashMap Text Nat) {i : Nat} (h : i < records.size) (name : Text) :
    follow known i name records =
      .ok () (records.mapIdx fun j record => if i = j then
        { record with outgoing := record.outgoing ++ resolved known i [name] } else record) := by
  unfold follow
  cases found : known[name]? with
  | none =>
    have nothing : resolved known i [name] = [] := by simp [resolved, found]
    rw [nothing, mapIdx_eq_self (by simp)]
    rfl
  | some target =>
    by_cases itself : target = i
    · have nothing : resolved known i [name] = [] := by simp [resolved, found, itself]
      rw [nothing, mapIdx_eq_self (by simp)]
      simp only [itself]
      rfl
    · have one : resolved known i [name] = [target] := by simp [resolved, found, itself]
      simp only [itself, one]
      exact alter_eq_mapIdx h _

theorem forM_follow_eq_ok (known : Std.HashMap Text Nat) {i : Nat} (h : i < records.size)
    (names : List Text) :
    names.forM (follow known i) records =
      .ok () (records.mapIdx fun j record => if i = j then
        { record with outgoing := record.outgoing ++ resolved known i names } else record) := by
  induction names generalizing records with
  | nil =>
    rw [mapIdx_eq_self (by simp [resolved])]
    rfl
  | cons name names ih =>
    change (follow known i name >>= fun _ => names.forM (follow known i)) records = _
    rw [bind_of_ok (follow_eq_ok known h name), ih (by simpa using h), Array.mapIdx_mapIdx,
      resolved_cons known i name names]
    congr 2
    funext j record
    by_cases here : i = j
    · simp [here]
    · simp [here]

theorem relink_eq_ok (known : Std.HashMap Text Nat) {i : Nat} (h : i < records.size) :
    relink known i records =
      .ok () (records.mapIdx fun j record => if i = j then
        { record with outgoing := resolved known i record.references } else record) := by
  have cleared : (records.mapIdx fun j record =>
      if i = j then { record with outgoing := [] } else record)[i]? =
      some { records[i] with outgoing := [] } := by
    simp [h]
  rw [relink, bind_of_ok (alter_eq_mapIdx h _), bind_of_ok (recordAt_eq_ok cleared),
    forM_follow_eq_ok known (by simpa using h), Array.mapIdx_mapIdx]
  congr 1
  apply mapIdx_congr
  intro j record at_j
  by_cases here : i = j
  · subst here
    obtain ⟨-, rfl⟩ := Array.getElem?_eq_some_iff.1 at_j
    simp
  · simp [here]

/-- Noting a record in its targets adds it to their sources as often as they are targets. -/
theorem forM_noteSource_eq_ok (i : Nat) {targets : List Nat}
    (h : ∀ target ∈ targets, target < records.size) :
    targets.forM (noteSource i) records =
      .ok () (records.mapIdx fun j record =>
        { record with incoming := record.incoming ++ List.replicate (targets.count j) i }) := by
  induction targets generalizing records with
  | nil =>
    rw [mapIdx_eq_self (by simp)]
    rfl
  | cons target targets ih =>
    obtain ⟨first, later⟩ := List.forall_mem_cons.1 h
    have noted : noteSource i target records = _ := alter_eq_mapIdx first _
    change (noteSource i target >>= fun _ => targets.forM (noteSource i)) records = _
    rw [bind_of_ok noted, ih (by simpa using later), Array.mapIdx_mapIdx]
    congr 2
    funext j record
    by_cases here : target = j
    · simp [here, List.replicate_succ]
    · simp [here]

/-- The last pass, on records without incoming links. -/
theorem forM_reverse_eq_ok (inside : ∀ i, ∀ target ∈ outgoingAt records i, target < records.size) :
    (List.range records.size).forM reverse
        (records.mapIdx fun _ record => { record with incoming := [] }) =
      .ok () (records.mapIdx fun j record =>
        { record with incoming := sourcesBelow records records.size j }) := by
  let arena (k : Nat) := records.mapIdx fun j record =>
    { record with incoming := sourcesBelow records k j }
  have rounds : ∀ i < records.size, reverse i (arena i) = .ok () (arena (i + 1)) := by
    intro i lt
    have here : (arena i)[i]? = some { records[i] with incoming := sourcesBelow records i i } := by
      simp [arena, lt]
    have links : records[i].outgoing = outgoingAt records i := by
      rw [outgoingAt, Array.getElem?_eq_getElem lt, Option.elim_some]
    have targets : ∀ target ∈ records[i].outgoing, target < (arena i).size := by
      simpa [links, arena] using inside i
    rw [reverse, bind_of_ok (recordAt_eq_ok here), forM_noteSource_eq_ok i targets,
      Array.mapIdx_mapIdx, links]
    congr 2
    funext j record
    simp [sourcesBelow_succ]
  exact forM_range_of_rounds rounds

end Passes

/-- Linking in place does what `connect` does. -/
theorem connectInPlace_eq (records : Array ClassRecord) :
    connectInPlace records = .ok (definitions records) (connect records) := by
  have start : (get : ArenaM (Array ClassRecord)) records = .ok records records := rfl
  have inside : ∀ i, ∀ target ∈ outgoingAt (linked records) i, target < (linked records).size := by
    intro i target mem
    rw [← outgoingAt_connect, mem_outgoingAt] at mem
    simpa [size_linked, size_connect] using lt_of_edge_connect mem
  have relinked : (List.range records.size).forM (relink (definitions records)) records =
      .ok () (linked records) := forM_range_of_changes (relink_eq_ok _)
  have cleared : (List.range (linked records).size).forM clearIncoming (linked records) = _ :=
    forM_range_of_changes fun lt => alter_eq_mapIdx lt _
  have reversed := forM_reverse_eq_ok inside
  rw [size_linked] at cleared reversed
  rw [connectInPlace, bind_of_ok start, bind_of_ok relinked, bind_of_ok cleared,
    bind_of_ok reversed, ← connect_eq_mapIdx_linked]
  rfl

/-! ## What the links depend on -/

/-- The class path and the references of a record. -/
def subject (record : ClassRecord) : Text × List Text := (record.classPath, record.references)

/-- The links of a record. -/
def links (record : ClassRecord) : List Nat × List Nat := (record.outgoing, record.incoming)

section Congruence

variable {records others : Array ClassRecord}

theorem definitions_congr (h : others.map subject = records.map subject) :
    definitions others = definitions records := by
  have paths : others.map ClassRecord.classPath = records.map ClassRecord.classPath := by
    have same := congrArg (Array.map Prod.fst) h
    rw [Array.map_map, Array.map_map] at same
    exact same
  rw [definitions_eq, definitions_eq, ← Array.toList_map, paths, Array.toList_map]

theorem outgoingAt_linked_congr (h : others.map subject = records.map subject) :
    outgoingAt (linked others) = outgoingAt (linked records) := by
  funext i
  have references : others[i]?.map ClassRecord.references =
      records[i]?.map ClassRecord.references := by
    have same := congrArg (fun subjects => subjects[i]?.map Prod.snd) h
    simp only [Array.getElem?_map, Option.map_map] at same
    exact same
  rw [outgoingAt_linked, outgoingAt_linked, definitions_congr h, references]

theorem sourcesBelow_congr (h : outgoingAt others = outgoingAt records) :
    sourcesBelow others = sourcesBelow records := by
  funext k j
  rw [sourcesBelow, sourcesBelow, h]

theorem outgoingAt_connect_congr (h : others.map subject = records.map subject) :
    outgoingAt (connect others) = outgoingAt (connect records) := by
  rw [outgoingAt_connect, outgoingAt_connect, outgoingAt_linked_congr h]

end Congruence

/-- Linking sets the links of every record and nothing else. -/
theorem connect_eq_mapIdx (records : Array ClassRecord) :
    connect records = records.mapIdx fun i record =>
      { record with
        outgoing := resolved (definitions records) i record.references
        incoming := sourcesBelow (connect records) records.size i } := by
  rw [sourcesBelow_congr (outgoingAt_connect records)]
  rw [connect_eq_mapIdx_linked, linked, Array.mapIdx_mapIdx]
  rfl

theorem map_subject_connect (records : Array ClassRecord) :
    (connect records).map subject = records.map subject := by
  apply Array.ext_getElem?
  intro i
  rw [connect_eq_mapIdx, Array.getElem?_map, Array.getElem?_map, Array.getElem?_mapIdx,
    Option.map_map]
  rfl

/-- Linking records again changes nothing. -/
theorem connect_connect (records : Array ClassRecord) :
    connect (connect records) = connect records := by
  have same := map_subject_connect records
  have sources := sourcesBelow_congr (outgoingAt_connect_congr same)
  rw [connect_eq_mapIdx (connect records), definitions_congr same, sources, size_connect]
  nth_rewrite 2 [connect_eq_mapIdx records]
  rw [Array.mapIdx_mapIdx]
  exact (connect_eq_mapIdx records).symm

theorem map_links_connect_congr {records others : Array ClassRecord}
    (h : others.map subject = records.map subject) :
    (connect others).map links = (connect records).map links := by
  have sources := sourcesBelow_congr (outgoingAt_connect_congr h)
  have size : others.size = records.size := by simpa using congrArg Array.size h
  apply Array.ext_getElem?
  intro i
  have here := congrArg (fun subjects => subjects[i]?.map fun subject =>
    (resolved (definitions records) i subject.2, sourcesBelow (connect records) records.size i)) h
  rw [connect_eq_mapIdx others, connect_eq_mapIdx records, definitions_congr h, sources, size]
  simp only [Array.getElem?_map, Array.getElem?_mapIdx, Option.map_map] at here ⊢
  exact here

/-! ## Links without repetitions -/

section Nodup

variable {records : Array ClassRecord}

theorem nodup_resolved (i : Nat) {references : List Text} (h : references.Nodup) :
    (resolved (definitions records) i references).Nodup := by
  apply List.Nodup.filter
  exact h.filterMap fun path path' target mem mem' => eq_of_definitions mem mem'

theorem lt_of_mem_sourcesBelow {i k j : Nat} (h : i ∈ sourcesBelow records k j) : i < k := by
  obtain ⟨source, below, mem⟩ := List.mem_flatMap.1 h
  rw [List.eq_of_mem_replicate mem]
  exact List.mem_range.1 below

theorem pairwise_sourcesBelow (h : ∀ i, (outgoingAt records i).Nodup) (k j : Nat) :
    (sourcesBelow records k j).Pairwise (· < ·) := by
  induction k with
  | zero => exact .nil
  | succ k ih =>
    rw [sourcesBelow_succ, List.pairwise_append]
    refine ⟨ih, ?_, ?_⟩
    · exact List.pairwise_replicate.2 (.inl (List.nodup_iff_count_le_one.1 (h k) j))
    · intro i before i' here
      rw [List.eq_of_mem_replicate here]
      exact lt_of_mem_sourcesBelow before

theorem nodup_outgoingAt_connect (h : ∀ record ∈ records, record.references.Nodup) (i : Nat) :
    (outgoingAt (connect records) i).Nodup := by
  rw [outgoingAt_connect, outgoingAt_linked]
  cases here : records[i]? with
  | none => exact List.nodup_nil
  | some record => exact nodup_resolved i (h record (Array.mem_of_getElem? here))

/-- References without repetitions give links without repetitions, and sources that increase. -/
theorem nodup_and_pairwise_of_mem_connect (h : ∀ record ∈ records, record.references.Nodup)
    {record : ClassRecord} (mem : record ∈ connect records) :
    record.outgoing.Nodup ∧ record.incoming.Pairwise (· < ·) := by
  obtain ⟨i, here⟩ := Array.getElem?_of_mem mem
  have outgoing := nodup_outgoingAt_connect h i
  rw [outgoingAt, here] at outgoing
  refine ⟨outgoing, ?_⟩
  rw [connect_eq_mapIdx, Array.getElem?_mapIdx, Option.map_eq_some_iff] at here
  obtain ⟨before, -, rfl⟩ := here
  exact pairwise_sourcesBelow (nodup_outgoingAt_connect h) records.size i

end Nodup

/-- The references of a class file have no repetitions. -/
theorem nodup_references_of_ofBytes {bytes : List UInt8} {summary : ClassSummary}
    (h : ClassSummary.ofBytes bytes = .ok summary) : summary.references.Nodup := by
  obtain ⟨file, -, rfl⟩ := map_eq_ok.1 h
  exact nodup_distinct _

/-! ## The outcome -/

/-- Linking an arena in place, whatever links its records had, gives the last record of every class
path. It sets the outgoing links of a record to what its references resolve to, and the incoming
ones to the sources of such links, and changes nothing else. The links depend on class paths and
references alone, so that linking again changes nothing, and references without repetitions, as
class files give them, make for links without repetitions and sources that increase. -/
theorem connectInPlace_outcome (records : Array ClassRecord) :
    connectInPlace records = .ok (definitions records) (connect records) ∧
    (∀ path i, (definitions records)[path]? = some i ↔ IsLast records path i) ∧
    (connect records = records.mapIdx fun i record =>
      { record with
        outgoing := resolved (definitions records) i record.references
        incoming := sourcesBelow (connect records) records.size i }) ∧
    (∀ others : Array ClassRecord, others.map subject = records.map subject →
      definitions others = definitions records ∧
        (connect others).map links = (connect records).map links) ∧
    connectInPlace (connect records) = .ok (definitions records) (connect records) ∧
    ((∀ record ∈ records, record.references.Nodup) → ∀ record ∈ connect records,
      record.outgoing.Nodup ∧ record.incoming.Pairwise (· < ·)) ∧
    ∀ bytes summary, ClassSummary.ofBytes bytes = .ok summary → summary.references.Nodup := by
  refine ⟨connectInPlace_eq records, fun path i => getElem?_definitions, connect_eq_mapIdx records,
    fun others same => ⟨definitions_congr same, map_links_connect_congr same⟩, ?_,
    fun single record mem => nodup_and_pairwise_of_mem_connect single mem,
    fun bytes summary => nodup_references_of_ofBytes⟩
  rw [connectInPlace_eq, connect_connect, definitions_congr (map_subject_connect records)]

/-- Two records of one class path, which both refer to that path, and a third one that refers to it
too. They hold links of an earlier arena. -/
def shadowed : Array ClassRecord :=
  #[{ fileName := "First.class", className := "X", classPath := "p/X",
      references := [("p/X" : Text), ("p/U" : Text)], outgoing := [7, 7] },
    { fileName := "Second.class", className := "X", classPath := "p/X",
      references := [("p/X" : Text)], incoming := [0] },
    { fileName := "User.class", className := "U", classPath := "p/U",
      references := [("java/lang/Object" : Text), ("p/X" : Text)], outgoing := [0] }]

theorem connect_shadowed :
    (connect shadowed).map links = #[([1, 2], []), ([], [0, 2]), ([1], [0])] := by
  simp only [connect, definitions, targets, shadowed, List.zipIdx_cons, List.zipIdx_nil,
    List.foldl_cons, List.foldl_nil, Std.HashMap.getElem?_insert, Std.HashMap.getElem?_empty]
  decide +kernel

theorem connectInPlace_outcome_shadowed :
    (∀ record ∈ shadowed, record.references.Nodup) ∧
      (∃ known after, connectInPlace shadowed = .ok known after ∧
        after.map links = #[([1, 2], []), ([], [0, 2]), ([1], [0])]) ∧
      ∀ record ∈ connect shadowed, record.outgoing.Nodup ∧ record.incoming.Pairwise (· < ·) := by
  obtain ⟨inPlace, -, -, -, -, increasing, -⟩ := connectInPlace_outcome shadowed
  have single : ∀ record ∈ shadowed, record.references.Nodup := by
    decide +kernel
  exact ⟨single, ⟨_, _, inPlace, connect_shadowed⟩, increasing single⟩

end Links

end ClassOrder
