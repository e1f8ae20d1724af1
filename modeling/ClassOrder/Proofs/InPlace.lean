import ClassOrder.Proofs.Answers
import ClassOrder.Proofs.Groups

/-!
# Finding groups in place

`Groups.findInPlace` looks positions up as it comes to them and notes groups record by record. It
does what `Groups.find` does (`findInPlace_eq_find`), so a failure is due to a position without a
record somewhere in the links, and leaves the arena as it was.
-/

namespace ClassOrder

theorem ArenaM.alter_eq_ok {records : Array ClassRecord} {i : Nat} (h : i < records.size)
    (f : ClassRecord → ClassRecord) : ArenaM.alter i f records = .ok () (records.modify i f) := by
  rw [ArenaM.alter, ClassRecord.updateAt, if_pos h]

namespace Groups

open Successors Search

/-! ## Searches that come to their end -/

section Walk

variable {records : Array ClassRecord} {lists : ClassRecord → List Nat}

/-- A frame as a search without look-ups has it. -/
def vertices (frame : Fin records.size × List Nat) : Frame records.size :=
  (frame.1, bounded records.size frame.2)

theorem bounded_cons {n i : Nat} (h : i < n) (positions : List Nat) :
    bounded n (i :: positions) = ⟨i, h⟩ :: bounded n positions := by
  simp [bounded, h]

/-- If no look-up fails, the search is one without look-ups. -/
theorem explore_of_walk {s t : Search records.size} {stack : List (Fin records.size × List Nat)}
    (h : walk records lists s stack = .ok t) :
    explore (successors records lists) s (stack.map vertices) = t := by
  fun_induction walk records lists s stack with
  | case1 s =>
    cases h
    rw [List.map_nil, explore]
  | case2 s v below ih =>
    have step : explore (successors records lists) s (((v, []) :: below).map vertices) =
        explore (successors records lists) (s.finish v) (below.map vertices) := by
      rw [List.map_cons, vertices, bounded, List.filterMap_nil, explore]
    rw [step, ih h]
  | case3 s v i rest below lt seen ih =>
    rw [← ih h, List.map_cons, vertices, bounded_cons lt, explore, dif_pos seen]
    rfl
  | case4 s v i rest below lt new ih =>
    have at_i : records[(⟨i, lt⟩ : Fin records.size).val]? = some records[i] :=
      Array.getElem?_eq_getElem lt
    rw [← ih h, List.map_cons, vertices, bounded_cons lt, explore, dif_neg new, getElem_eq_get,
      get_successors at_i]
    rfl
  | case5 => cases h

theorem visit_of_walkFrom {s t : Search records.size} {root : Fin records.size}
    (h : walkFrom records lists s root = .ok t) : visit (successors records lists) s root = t := by
  unfold walkFrom at h
  unfold visit
  split_ifs at h ⊢
  · cases h
    rfl
  · have at_root := Array.getElem?_eq_getElem root.isLt
    rw [getElem_eq_get, get_successors at_root]
    rw [at_root] at h
    exact explore_of_walk h

theorem flood_of_floodFrom {state state' : Flood records.size} {root : Fin records.size}
    (h : floodFrom records lists state root = .ok state') :
    flood (successors records lists) state root = state' := by
  unfold floodFrom at h
  unfold flood
  split_ifs at h ⊢
  · cases h
    rfl
  · obtain ⟨search, walked, h⟩ := bind_eq_ok.1 h
    cases h
    rw [visit_of_walkFrom walked]

theorem exists_walk (inside : inRange records lists) (s : Search records.size)
    (stack : List (Fin records.size × List Nat))
    (h : ∀ frame ∈ stack, ∀ i ∈ frame.2, i < records.size) :
    ∃ t, walk records lists s stack = .ok t := by
  fun_induction walk records lists s stack with
  | case1 s => exact ⟨s, rfl⟩
  | case2 s v below ih => exact ih (List.forall_mem_cons.1 h).2
  | case3 s v i rest below lt seen ih =>
    obtain ⟨top, below⟩ := List.forall_mem_cons.1 h
    exact ih (List.forall_mem_cons.2 ⟨(List.forall_mem_cons.1 top).2, below⟩)
  | case4 s v i rest below lt new ih =>
    obtain ⟨top, below⟩ := List.forall_mem_cons.1 h
    refine ih (List.forall_mem_cons.2 ⟨?_, List.forall_mem_cons.2 ⟨?_, below⟩⟩)
    · exact inRange_iff.1 inside i records[i] (Array.getElem?_eq_getElem lt)
    · exact (List.forall_mem_cons.1 top).2
  | case5 s v i rest below outside =>
    exact absurd (h _ (List.mem_cons_self ..) i (List.mem_cons_self ..)) outside

theorem exists_walkFrom (inside : inRange records lists) (s : Search records.size)
    (root : Fin records.size) : ∃ t, walkFrom records lists s root = .ok t := by
  unfold walkFrom
  split_ifs
  · exact ⟨s, rfl⟩
  · apply exists_walk inside
    intro frame mem
    have at_root := Array.getElem?_eq_getElem root.isLt
    rw [List.mem_singleton.1 mem, at_root]
    exact inRange_iff.1 inside root _ at_root

theorem exists_floodFrom (inside : inRange records lists) (state : Flood records.size)
    (root : Fin records.size) : ∃ state', floodFrom records lists state root = .ok state' := by
  unfold floodFrom
  split_ifs
  · exact ⟨state, rfl⟩
  · obtain ⟨search, walked⟩ := exists_walkFrom inside { state.search with entered := [] } root
    exact ⟨_, bind_eq_ok.2 ⟨search, walked, rfl⟩⟩

end Walk

/-! ## The first failure -/

section Failure

variable {n : Nat} {s : Search n} {t : Search (n + 2)} {e : RecordError}

theorem failureOf_castAdd (v : Fin n) : failureOf (Fin.castAdd 2 v) = none := if_pos v.isLt

theorem target_of_lt {i : Nat} (h : i < n) : target n i = Fin.castAdd 2 ⟨i, h⟩ := dif_pos h

/-- A position without a record leads to the vertex for its failure. -/
theorem failureOf_target {i : Nat} (h : ¬i < n) : failureOf (target n i) = some (.ofIndex i) := by
  rw [target, dif_neg h]
  cases RecordError.ofIndex i with
  | outOfRange => simp [failureOf]
  | tooLarge => simp [failureOf]

/-- A search with the vertices for failures has seen the same records as one without, and nothing
else. -/
structure Follows (s : Search n) (t : Search (n + 2)) : Prop where
  isSeen_iff : ∀ v, t.isSeen (Fin.castAdd 2 v) ↔ s.isSeen v
  seen : ∀ v, t.isSeen v → failureOf v = none
  entered : ∀ v ∈ t.entered, failureOf v = none

/-- A search has come to a failure. -/
def Fails (e : RecordError) (t : Search (n + 2)) : Prop :=
  t.entered.reverse.findSome? failureOf = some e

/-- A search with look-ups ends as one with the vertices for failures does. -/
def Agrees (result : Except RecordError (Search n)) (t : Search (n + 2)) : Prop :=
  match result with
  | .ok s => Follows s t
  | .error e => Fails e t

namespace Follows

theorem start : Follows (start : Search n) .start where
  isSeen_iff v := iff_of_false (isSeen_start _) (isSeen_start v)
  seen v h := absurd h (isSeen_start v)
  entered := by simp [Search.start]

theorem finish (h : Follows s t) (v : Fin n) (w : Fin (n + 2)) :
    Follows (s.finish v) (t.finish w) :=
  ⟨h.isSeen_iff, h.seen, h.entered⟩

theorem enter (h : Follows s t) (v : Fin n) : Follows (s.enter v) (t.enter (Fin.castAdd 2 v)) where
  isSeen_iff w := by
    rw [isSeen_enter, isSeen_enter, h.isSeen_iff, Fin.ext_iff, Fin.ext_iff]
    rfl
  seen w seen := by
    rcases (isSeen_enter ..).1 seen with rfl | seen
    · exact failureOf_castAdd v
    · exact h.seen w seen
  entered := List.forall_mem_cons.2 ⟨failureOf_castAdd v, h.entered⟩

end Follows

theorem Fails.enter_target (h : Follows s t) {i : Nat} (outside : ¬i < n) :
    Fails (.ofIndex i) (t.enter (target n i)) := by
  have before : t.entered.reverse.findSome? failureOf = none :=
    List.findSome?_eq_none_iff.2 fun v mem => h.entered v (List.mem_reverse.1 mem)
  rw [Fails, entered_enter, List.reverse_cons, List.findSome?_append, before,
    List.findSome?_singleton]
  exact failureOf_target outside

theorem Fails.enter (h : Fails e t) (v : Fin (n + 2)) : Fails e (t.enter v) := by
  rw [Fails] at h
  rw [Fails, entered_enter, List.reverse_cons, List.findSome?_append, h, Option.some_or]

/-- The first failure stays the first one. -/
theorem Fails.kept (next : Successors (n + 2)) : Kept next fun t _ => Fails e t := by
  intro s stack t stack' move h
  cases move with
  | enter v w rest below new => exact h.enter w
  | pass | leave => exact h

theorem Fails.keptByStart (next : Successors (n + 2)) : KeptByStart next fun t _ => Fails e t :=
  fun _ h => h.enter _

end Failure

section Agreement

variable {records : Array ClassRecord} {lists : ClassRecord → List Nat}

/-- A frame as a search with the vertices for failures has it. -/
def marked (frame : Fin records.size × List Nat) : Frame (records.size + 2) :=
  (Fin.castAdd 2 frame.1, frame.2.map (target records.size))

theorem get_targets (v : Fin records.size) :
    (targets records lists).get (Fin.castAdd 2 v) =
      (records[v.val]?.elim [] lists).map (target records.size) := by
  change (targets records lists)[v.val] = _
  simp [targets]

theorem agrees_walk {s : Search records.size} {t : Search (records.size + 2)} (h : Follows s t)
    (stack : List (Fin records.size × List Nat)) :
    Agrees (walk records lists s stack) (explore (targets records lists) t (stack.map marked)) := by
  fun_induction walk records lists s stack generalizing t with
  | case1 s =>
    rw [List.map_nil, explore]
    exact h
  | case2 s v below ih =>
    have step : explore (targets records lists) t (((v, []) :: below).map marked) =
        explore (targets records lists) (t.finish (Fin.castAdd 2 v)) (below.map marked) := by
      rw [List.map_cons, marked, List.map_nil, explore]
    rw [step]
    exact ih (h.finish v _)
  | case3 s v i rest below lt seen ih =>
    rw [List.map_cons, marked, List.map_cons, target_of_lt lt, explore,
      dif_pos ((h.isSeen_iff _).2 seen)]
    exact ih h
  | case4 s v i rest below lt new ih =>
    rw [List.map_cons, marked, List.map_cons, target_of_lt lt, explore,
      dif_neg (mt (h.isSeen_iff _).1 new), getElem_eq_get, get_targets,
      Array.getElem?_eq_getElem lt]
    exact ih (h.enter _)
  | case5 s v i rest below outside =>
    have new : ¬t.isSeen (target records.size i) := by
      intro seen
      have := h.seen _ seen
      rw [failureOf_target outside] at this
      cases this
    rw [List.map_cons, marked, List.map_cons, explore, dif_neg new]
    exact explore_keeps (Fails.kept _) (Fails.enter_target h outside)

theorem agrees_walkFrom {s : Search records.size} {t : Search (records.size + 2)} (h : Follows s t)
    (root : Fin records.size) :
    Agrees (walkFrom records lists s root)
      (visit (targets records lists) t (Fin.castAdd 2 root)) := by
  unfold walkFrom visit
  by_cases seen : s.isSeen root
  · rw [if_pos seen, if_pos ((h.isSeen_iff root).2 seen)]
    exact h
  · rw [if_neg seen, if_neg (mt (h.isSeen_iff root).1 seen), getElem_eq_get, get_targets]
    exact agrees_walk (h.enter root) [(root, records[root.val]?.elim [] lists)]

theorem agrees_floodFrom {state : Flood records.size} {t : Search (records.size + 2)}
    (h : Follows state.search t) (root : Fin records.size) :
    Agrees ((floodFrom records lists state root).map Flood.search)
      (visit (targets records lists) t (Fin.castAdd 2 root)) := by
  have recount : Follows { state.search with entered := [] } t := ⟨h.isSeen_iff, h.seen, h.entered⟩
  have walked : Agrees (walkFrom records lists _ root) _ := agrees_walkFrom recount root
  unfold floodFrom
  split_ifs with seen
  · rw [visit, if_pos ((h.isSeen_iff root).2 seen)]
    exact h
  · cases result : walkFrom records lists { state.search with entered := [] } root with
    | ok search =>
      rw [result] at walked
      exact walked
    | error e =>
      rw [result] at walked
      exact walked

end Agreement

/-! ## Searches from all records -/

section Roots

variable {records : Array ClassRecord} {lists : ClassRecord → List Nat} {σ : Type}

/-- A step of a search that looks positions up, beside the step of one that does not. -/
structure Checks (records : Array ClassRecord) (lists : ClassRecord → List Nat)
    (search : σ → Search records.size) (checked : σ → Fin records.size → Except RecordError σ)
    (plain : σ → Fin records.size → σ) : Prop where
  agrees : ∀ {state t}, Follows (search state) t → ∀ root,
    Agrees ((checked state root).map search) (visit (targets records lists) t (Fin.castAdd 2 root))
  eq_of_ok : ∀ {state root state'}, checked state root = .ok state' → plain state root = state'
  exists_ok : inRange records lists → ∀ state root, ∃ state', checked state root = .ok state'

theorem checks_walkFrom (records : Array ClassRecord) (lists : ClassRecord → List Nat) :
    Checks records lists id (walkFrom records lists) (visit (successors records lists)) where
  agrees h root := by
    rw [Except.map_id]
    exact agrees_walkFrom h root
  eq_of_ok := visit_of_walkFrom
  exists_ok := exists_walkFrom

theorem checks_floodFrom (records : Array ClassRecord) (lists : ClassRecord → List Nat) :
    Checks records lists Flood.search (floodFrom records lists)
      (flood (successors records lists)) where
  agrees := agrees_floodFrom
  eq_of_ok := flood_of_floodFrom
  exists_ok := exists_floodFrom

namespace Checks

variable {search : σ → Search records.size} {checked : σ → Fin records.size → Except RecordError σ}
  {plain : σ → Fin records.size → σ} {state state' : σ} {t : Search (records.size + 2)}

theorem agrees_foldlM (h : Checks records lists search checked plain)
    (follows : Follows (search state) t) (roots : List (Fin records.size)) :
    Agrees ((roots.foldlM checked state).map search)
      ((roots.map (Fin.castAdd 2)).foldl (visit (targets records lists)) t) := by
  induction roots generalizing state t with
  | nil => exact follows
  | cons root roots ih =>
    have first := h.agrees follows root
    rw [List.foldlM_cons, List.map_cons, List.foldl_cons]
    cases result : checked state root with
    | ok next =>
      rw [result] at first
      exact ih first
    | error e =>
      rw [result] at first
      exact foldl_visit_keeps (Fails.kept _) (Fails.keptByStart (targets records lists)) _ first

theorem foldl_of_foldlM (h : Checks records lists search checked plain)
    {roots : List (Fin records.size)} (done : roots.foldlM checked state = .ok state') :
    roots.foldl plain state = state' := by
  induction roots generalizing state with
  | nil =>
    cases done
    rfl
  | cons root roots ih =>
    rw [List.foldlM_cons] at done
    obtain ⟨next, first, later⟩ := bind_eq_ok.1 done
    rw [List.foldl_cons, h.eq_of_ok first]
    exact ih later

theorem exists_foldlM (h : Checks records lists search checked plain)
    (inside : inRange records lists) (state : σ) (roots : List (Fin records.size)) :
    ∃ state', roots.foldlM checked state = .ok state' := by
  induction roots generalizing state with
  | nil => exact ⟨state, rfl⟩
  | cons root roots ih =>
    obtain ⟨next, first⟩ := h.exists_ok inside state root
    obtain ⟨last, later⟩ := ih next
    exact ⟨last, bind_eq_ok.2 ⟨next, first, later⟩⟩

end Checks

/-- A search from all records that meets no failure has met every position in the lists. -/
theorem inRange_of_follows {s : Search records.size} {roots : List (Fin records.size)}
    (all : ∀ v, v ∈ roots)
    (h : Follows s (visitAll (targets records lists) (roots.map (Fin.castAdd 2)))) :
    inRange records lists := by
  have consistent : Consistent (targets records lists) _ [] :=
    visitAll_keeps Consistent.kept Consistent.keptByStart (roots.map (Fin.castAdd 2)) (.start _)
  refine inRange_iff.2 fun i record hi j mem => ?_
  obtain ⟨lt, rfl⟩ := Array.getElem?_eq_some_iff.1 hi
  have root : Fin.castAdd 2 ⟨i, lt⟩ ∈ roots.map (Fin.castAdd 2) := List.mem_map_of_mem (all ⟨i, lt⟩)
  have edge : Edge (targets records lists) (Fin.castAdd 2 ⟨i, lt⟩) (target records.size j) := by
    rw [Edge, get_targets, Array.getElem?_eq_getElem lt]
    exact List.mem_map_of_mem mem
  have seen := consistent.isSeen_of_reaches (isSeen_foldl_visit root start) (.single edge)
  by_contra outside
  have failure := h.seen _ seen
  rw [failureOf_target outside] at failure
  cases failure

/-- A search from all records comes to its end if all positions have records, and fails with the
first failure that it comes to otherwise. -/
theorem Checks.foldlM_eq {search : σ → Search records.size}
    {checked : σ → Fin records.size → Except RecordError σ} {plain : σ → Fin records.size → σ}
    (h : Checks records lists search checked plain) (state : σ) (fresh : search state = .start)
    (roots : List (Fin records.size)) (all : ∀ v, v ∈ roots) :
    roots.foldlM checked state =
      if inRange records lists then .ok (roots.foldl plain state)
      else .error (firstFailure records lists roots) := by
  have follows : Follows (search state) .start := fresh ▸ .start
  have agrees := h.agrees_foldlM follows roots
  split_ifs with inside
  · obtain ⟨last, done⟩ := h.exists_foldlM inside state roots
    rw [done, h.foldl_of_foldlM done]
  · cases result : roots.foldlM checked state with
    | ok last =>
      rw [result] at agrees
      exact absurd (inRange_of_follows all agrees) inside
    | error e =>
      rw [result] at agrees
      have first : firstFailure? records lists roots = some e := agrees
      rw [firstFailure, first, Option.getD_some]

end Roots

/-! ## Groups in place -/

section InPlace

/-- The first pass comes to its end if all positions in the outgoing links have records. -/
theorem leave_eq (records : Array ClassRecord) :
    leave records =
      if inRange records ClassRecord.outgoing then
        .ok (finishOrder (successors records ClassRecord.outgoing))
      else .error (firstFailure records ClassRecord.outgoing (List.finRange records.size)) := by
  have searched := (checks_walkFrom records ClassRecord.outgoing).foldlM_eq .start rfl
    (List.finRange records.size) List.mem_finRange
  rw [leave, searched]
  split_ifs <;> rfl

/-- The second pass comes to its end if all positions in the incoming links have records. -/
theorem createdGroups_eq {records : Array ClassRecord} {order : List (Fin records.size)}
    (all : ∀ v, v ∈ order) :
    createdGroups records order =
      if inRange records ClassRecord.incoming then
        .ok ((floodAll (successors records ClassRecord.incoming) order).reverse.map
          (List.map Fin.val))
      else .error (firstFailure records ClassRecord.incoming order) := by
  have searched :=
    (checks_floodFrom records ClassRecord.incoming).foldlM_eq ⟨.start, []⟩ rfl order all
  rw [createdGroups, searched]
  split_ifs <;> rfl

theorem groupsOf_eq (records : Array ClassRecord) :
    groupsOf records = (find records).map Prod.snd := by
  have second := createdGroups_eq (mem_finishOrder (successors records ClassRecord.outgoing))
  rw [groupsOf, leave_eq, find]
  by_cases outgoing : inRange records ClassRecord.outgoing
  · rw [if_pos outgoing]
    change (createdGroups records (finishOrder (successors records ClassRecord.outgoing)) >>= _) = _
    rw [second]
    by_cases incoming : inRange records ClassRecord.incoming
    · have listed : ((floodAll (successors records ClassRecord.incoming)
          (finishOrder (successors records ClassRecord.outgoing))).reverse.map
            (List.map Fin.val)).reverse.map Group.mk = ofLinked records := by
        rw [← List.map_reverse, List.reverse_reverse, List.map_map]
        rfl
      simp only [outgoing, incoming, Bool.not_true, Bool.false_eq_true, if_true, if_false, ← listed]
      rfl
    · simp only [outgoing, incoming]
      rfl
  · simp only [outgoing]
    rfl

variable {records : Array ClassRecord}

theorem noteMembers_eq_ok (k : Nat) {members : List Nat} (h : ∀ m ∈ members, m < records.size) :
    noteMembers (⟨members⟩, k) records = .ok () (mark records ⟨members⟩ k) := by
  induction members generalizing records with
  | nil => rfl
  | cons m members ih =>
    obtain ⟨first, later⟩ := List.forall_mem_cons.1 h
    change EStateM.bind (ArenaM.alter m fun record => { record with group := some k })
      (fun _ => noteMembers (⟨members⟩, k)) records = _
    rw [EStateM.bind, ArenaM.alter_eq_ok first]
    exact ih (by simpa using later)

theorem forM_noteMembers_eq_ok {entries : List (Group × Nat)}
    (h : ∀ entry ∈ entries, ∀ m ∈ entry.1.members, m < records.size) :
    (entries.forM noteMembers : ArenaM Unit) records =
      .ok () (entries.foldl (fun records (group, k) => mark records group k) records) := by
  induction entries generalizing records with
  | nil => rfl
  | cons entry entries ih =>
    obtain ⟨first, later⟩ := List.forall_mem_cons.1 h
    change EStateM.bind (noteMembers entry) (fun _ => entries.forM noteMembers)
      records = _
    rw [EStateM.bind, noteMembers_eq_ok entry.2 first]
    exact ih (by rwa [size_mark])

theorem eq_of_find {grouped : Array ClassRecord} {groups : List Group}
    (h : find records = .ok (grouped, groups)) :
    groups = ofLinked records ∧ grouped = markAll records (ofLinked records) := by
  unfold find at h
  split_ifs at h
  cases h
  exact ⟨rfl, rfl⟩

/-- Finding the groups in place leaves the arena as it is when it fails, and otherwise leaves the
records with their groups. -/
theorem findInPlace_eq_find (records : Array ClassRecord) :
    findInPlace records =
      match find records with
      | .ok (grouped, groups) => .ok groups grouped
      | .error e => .error e records := by
  have asked := groupsOf_eq records
  change EStateM.bind (ArenaM.asks groupsOf) _ records = _
  rw [EStateM.bind, ArenaM.asks, asked]
  cases found : find records with
  | error e => rfl
  | ok result =>
    obtain ⟨grouped, groups⟩ := result
    obtain ⟨rfl, rfl⟩ := eq_of_find found
    have inside : ∀ entry ∈ (ofLinked records).zipIdx, ∀ m ∈ entry.1.members, m < records.size := by
      intro entry mem m hm
      refine (partitions_ofLinked records).lt_of_inGroup (k := entry.2) ⟨entry.1, ?_, hm⟩
      exact List.mem_zipIdx_iff_getElem?.1 mem
    have noted := forM_noteMembers_eq_ok inside
    change EStateM.bind ((ofLinked records).zipIdx.forM noteMembers) _ records = _
    rw [EStateM.bind, noted]
    rfl

/-- Some link of a record leads to a position without a record. -/
def Dangling (records : Array ClassRecord) : Prop :=
  ∃ record ∈ records, ∃ i, (i ∈ record.outgoing ∨ i ∈ record.incoming) ∧ records.size ≤ i

theorem inRange_and_inRange_iff :
    inRange records ClassRecord.outgoing ∧ inRange records ClassRecord.incoming ↔
      ¬Dangling records := by
  simp only [inRange, Array.all_eq_true_iff_forall_mem, List.all_eq_true, decide_eq_true_eq]
  constructor
  · rintro ⟨outgoing, incoming⟩ ⟨record, mem, i, link | link, outside⟩
    · exact Nat.not_lt.2 outside (outgoing record mem i link)
    · exact Nat.not_lt.2 outside (incoming record mem i link)
  · intro none
    refine ⟨fun record mem i link => ?_, fun record mem i link => ?_⟩
    · exact Nat.lt_of_not_le fun outside => none ⟨record, mem, i, .inl link, outside⟩
    · exact Nat.lt_of_not_le fun outside => none ⟨record, mem, i, .inr link, outside⟩

theorem exists_find_eq_error_iff : (∃ e, find records = .error e) ↔ Dangling records := by
  rw [← not_iff_not, ← inRange_and_inRange_iff]
  unfold find
  split_ifs with outgoing incoming
  · simp_all
  · simp_all
  · simp_all

/-- Finding the groups in place does what `find` does. It fails if some link leads to a position
without a record, and then nothing has changed. Otherwise the groups are a partition of the records,
they are noted in their members, and nothing else has changed. -/
theorem findInPlace_outcome (records : Array ClassRecord) :
    (findInPlace records =
      match find records with
      | .ok (grouped, groups) => .ok groups grouped
      | .error e => .error e records) ∧
    ((∃ e after, findInPlace records = .error e after) ↔ Dangling records) ∧
    (∀ e after, findInPlace records = .error e after → after = records) ∧
    ∀ groups after, findInPlace records = .ok groups after →
      Partitions groups records.size ∧
      (∀ m k, groupOf after m = some k ↔ InGroup groups k m) ∧
      after.map (fun record => { record with group := none }) =
        records.map fun record => { record with group := none } := by
  refine ⟨findInPlace_eq_find records, ?_⟩
  rw [findInPlace_eq_find, ← exists_find_eq_error_iff]
  cases found : find records with
  | error e =>
    refine ⟨⟨fun _ => ⟨e, rfl⟩, fun _ => ⟨e, records, rfl⟩⟩, ?_, ?_⟩
    · intro e after failed
      cases failed
      rfl
    · intro groups after done
      cases done
  | ok result =>
    obtain ⟨grouped, groups⟩ := result
    obtain ⟨rfl, rfl⟩ := eq_of_find found
    refine ⟨⟨fun ⟨e, after, failed⟩ => ?_, fun ⟨e, failed⟩ => ?_⟩, ?_, ?_⟩
    · cases failed
    · cases failed
    · intro e after failed
      cases failed
    · intro groups after done
      cases done
      have partition := partitions_ofLinked records
      exact ⟨partition, fun m k => partition.groupOf_markAll, map_markAll (fun _ _ => rfl) ..⟩

end InPlace

end Groups

end ClassOrder
