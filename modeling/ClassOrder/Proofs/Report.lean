import ClassOrder.Proofs.Groups
import ClassOrder.Proofs.Answers
import ClassOrder.Report

/-!
# The outline of a report

`Report.outline` says what each line of a report is about: a line is the header of a cyclic group or
has a record as its subject. When groups are not empty and all positions have records, the report is
the outline written out (`lines_eq_outline`), and the place of a line in the outline tells its group
(`exists_group_of_getElem?_outline`).
-/

namespace ClassOrder

namespace Report

/-- What a line is about: the members of a cyclic group, or a record of a group. -/
inductive Line where
  | header (group : Group)
  | subject (group : Group) (index : Nat)
  deriving DecidableEq, Repr

/-- A header if the group is cyclic, then one line for each member. -/
def groupOutline (group : Group) : List Line :=
  (if group.isCyclic then [.header group] else []) ++ group.members.map (.subject group)

def outline (groups : List Group) : List Line := groups.flatMap groupOutline

/-- The class name of the record at a position. -/
def nameAt (records : Array ClassRecord) (i : Nat) : Text :=
  records[i]?.elim [] ClassRecord.className

/-- The class names of the records that the record at a position links to. -/
def targetNamesAt (records : Array ClassRecord) (i : Nat) : List Text :=
  (records[i]?.elim [] ClassRecord.outgoing).map (nameAt records)

namespace Line

/-- The record that a line is about. -/
def record? : Line → Option Nat
  | header _ => none
  | subject _ i => some i

/-- The text of a line. -/
def text (records : Array ClassRecord) : Line → Text
  | header group => Text.bracketed (group.members.map (nameAt records))
  | subject group i =>
    (if group.isCyclic then indent else []) ++
      (nameAt records i ++ " -> " ++ Text.bracketed (targetNamesAt records i))

end Line

/-! ## The lines of a report -/

section Lookup

variable {records : Array ClassRecord}

theorem lookup_eq_ok {i : Nat} {record : ClassRecord} (h : records[i]? = some record) :
    ClassRecord.lookup records i = .ok record := by
  rw [ClassRecord.lookup, h]

theorem classNames_eq_ok {positions : List Nat} (h : ∀ i ∈ positions, i < records.size) :
    classNames records positions = .ok (positions.map (nameAt records)) := by
  refine mapM_eq_ok_map fun i mem => ?_
  have at_i := Array.getElem?_eq_getElem (h i mem)
  rw [lookup_eq_ok at_i, nameAt, at_i]
  rfl

theorem lineAt_eq_ok (inside : ∀ {i j}, Links.Edge records i j → j < records.size) {i : Nat}
    (h : i < records.size) :
    lineAt records i =
      .ok (nameAt records i ++ " -> " ++ Text.bracketed (targetNamesAt records i)) := by
  have at_i := Array.getElem?_eq_getElem h
  have names : classNames records records[i].outgoing =
      .ok (records[i].outgoing.map (nameAt records)) :=
    classNames_eq_ok fun j mem => inside ⟨records[i], at_i, mem⟩
  rw [lineAt, lookup_eq_ok at_i, nameAt, targetNamesAt, at_i]
  change recordLine records records[i] = _
  rw [recordLine, names]
  rfl

theorem groupLines_eq_ok (inside : ∀ {i j}, Links.Edge records i j → j < records.size)
    {group : Group} (nonempty : group.members ≠ []) (h : ∀ m ∈ group.members, m < records.size) :
    groupLines records group = .ok ((groupOutline group).map (Line.text records)) := by
  have line : ∀ m ∈ group.members, lineAt records m =
      .ok (nameAt records m ++ " -> " ++ Text.bracketed (targetNamesAt records m)) :=
    fun m mem => lineAt_eq_ok inside (h m mem)
  obtain ⟨members⟩ := group
  match members, nonempty with
  | [m], _ =>
    simp only [groupLines]
    rw [line m (by simp)]
    rfl
  | m :: m' :: rest, _ =>
    have names : classNames records (m :: m' :: rest) = .ok _ := classNames_eq_ok h
    have lines : (m :: m' :: rest).mapM (lineAt records) = .ok _ := mapM_eq_ok_map line
    have cyclic : Group.isCyclic ⟨m :: m' :: rest⟩ := by simp [Group.isCyclic]
    simp only [groupLines]
    rw [names, lines, groupOutline, if_pos cyclic, List.map_append, List.map_map]
    simp only [Function.comp_def, Line.text, if_pos cyclic]
    simp [bind, Except.bind, pure, Except.pure, Line.text]

/-- A report of groups that are not empty and of positions that have records is its outline. -/
theorem lines_eq_outline (inside : ∀ {i j}, Links.Edge records i j → j < records.size)
    {groups : List Group} (nonempty : ∀ group ∈ groups, group.members ≠ [])
    (h : ∀ group ∈ groups, ∀ m ∈ group.members, m < records.size) :
    lines records groups = .ok ((outline groups).map (Line.text records)) := by
  have each : groups.mapM (groupLines records) =
      .ok (groups.map fun group => (groupOutline group).map (Line.text records)) :=
    mapM_eq_ok_map fun group mem => groupLines_eq_ok inside (nonempty group mem) (h group mem)
  rw [lines, each, outline, List.map_flatMap, List.flatMap_def]
  rfl

end Lookup

/-- The report of records and some of their groups is its outline. -/
theorem lines_of_subset {linked : Array ClassRecord} (mirrored : Links.Mirrored linked)
    {groups : List Group} (subset : groups ⊆ Groups.ofLinked linked) :
    let grouped := Groups.markAll linked (Groups.ofLinked linked)
    lines grouped groups = .ok ((outline groups).map (Line.text grouped)) := by
  intro grouped
  have size : grouped.size = linked.size := Groups.size_markAll linked _
  refine lines_eq_outline ?_ ?_ ?_
  · intro i j edge
    rw [Groups.edge_markAll] at edge
    rw [size]
    exact mirrored.lt_of_edge edge
  · exact fun group mem => (Groups.partitions_ofLinked linked).ne_nil group (subset mem)
  · intro group mem m hm
    obtain ⟨k, hk⟩ := List.mem_iff_getElem?.1 (subset mem)
    rw [size]
    exact (Groups.partitions_ofLinked linked).lt_of_inGroup ⟨group, hk, hm⟩

/-- The report of records and their groups is its outline. -/
theorem lines_ofLinked {linked : Array ClassRecord} (mirrored : Links.Mirrored linked) :
    let grouped := Groups.markAll linked (Groups.ofLinked linked)
    lines grouped (Groups.ofLinked linked) =
      .ok ((outline (Groups.ofLinked linked)).map (Line.text grouped)) :=
  lines_of_subset mirrored (List.Subset.refl _)

/-! ## The lines of an outline -/

theorem length_outline (groups : List Group) :
    (outline groups).length =
      (groups.flatMap Group.members).length + Groups.cyclicCount groups := by
  unfold outline Groups.cyclicCount
  induction groups with
  | nil => rfl
  | cons group groups ih =>
    rw [List.flatMap_cons, List.length_append, ih, List.flatMap_cons, List.length_append,
      List.countP_cons, groupOutline]
    split_ifs with cyclic
    · simp only [List.length_append, List.length_cons, List.length_nil, List.length_map]
      omega
    · simp only [List.length_append, List.length_nil, List.length_map]
      omega

theorem filterMap_record?_outline (groups : List Group) :
    (outline groups).filterMap Line.record? = groups.flatMap Group.members := by
  rw [outline, List.filterMap_flatMap]
  congr 1
  funext group
  have subjects : (group.members.map (Line.subject group)).filterMap Line.record? =
      group.members := by
    rw [List.filterMap_map]
    exact List.filterMap_some
  rw [groupOutline, List.filterMap_append, subjects]
  split_ifs <;> rfl

/-- An element of a list of parts lies between the ends of the parts before and up to its own. -/
theorem exists_of_getElem?_flatMap {α β : Type} {f : α → List β} {xs : List α} {p : Nat} {b : β}
    (h : (xs.flatMap f)[p]? = some b) :
    ∃ k x, xs[k]? = some x ∧ b ∈ f x ∧ ((xs.take k).flatMap f).length ≤ p ∧
      p < ((xs.take (k + 1)).flatMap f).length := by
  induction xs generalizing p with
  | nil => simp at h
  | cons x xs ih =>
    rw [List.flatMap_cons, List.getElem?_append] at h
    split_ifs at h with first
    · exact ⟨0, x, rfl, List.mem_of_getElem? h, by simp, by simpa using first⟩
    · obtain ⟨k, y, hk, mem, le, lt⟩ := ih h
      refine ⟨k + 1, y, hk, mem, ?_, ?_⟩
      · rw [List.take_succ_cons, List.flatMap_cons, List.length_append]
        omega
      · rw [List.take_succ_cons, List.flatMap_cons, List.length_append]
        omega

theorem length_outline_take_le (groups : List Group) {k l : Nat} (h : k ≤ l) :
    (outline (groups.take k)).length ≤ (outline (groups.take l)).length := by
  obtain ⟨m, rfl⟩ := Nat.exists_eq_add_of_le h
  rw [List.take_add, outline, outline, List.flatMap_append, List.length_append]
  omega

theorem exists_group_of_getElem?_outline {groups : List Group} {p i : Nat} {group : Group}
    (h : (outline groups)[p]? = some (.subject group i)) :
    ∃ k, groups[k]? = some group ∧ i ∈ group.members ∧
      (outline (groups.take k)).length ≤ p ∧ p < (outline (groups.take (k + 1))).length := by
  obtain ⟨k, group', hk, mem, le, lt⟩ := exists_of_getElem?_flatMap h
  have same : group' = group ∧ i ∈ group'.members := by
    rcases List.mem_append.1 mem with mem | mem
    · split_ifs at mem <;> simp at mem
    · obtain ⟨m, hm, eq⟩ := List.mem_map.1 mem
      cases eq
      exact ⟨rfl, hm⟩
  obtain ⟨rfl, hi⟩ := same
  exact ⟨k, hk, hi, le, lt⟩

/-- In an outline of the groups of records, the line of a record comes behind the line of one that it
links to, or both stand in one cyclic group. -/
theorem lt_or_eq_of_edge {records : Array ClassRecord} (mirrored : Links.Mirrored records)
    (irreflexive : ∀ {i j}, Links.Edge records i j → j ≠ i) {r t p q : Nat} {source target : Group}
    (edge : Links.Edge records r t)
    (hp : (outline (Groups.ofLinked records))[p]? = some (.subject source r))
    (hq : (outline (Groups.ofLinked records))[q]? = some (.subject target t)) :
    q < p ∨ source = target ∧ source.isCyclic := by
  obtain ⟨k, hk, hr, le, -⟩ := exists_group_of_getElem?_outline hp
  obtain ⟨l, hl, ht, -, lt⟩ := exists_group_of_getElem?_outline hq
  have order : l ≤ k := Groups.le_of_edge mirrored ⟨source, hk, hr⟩ ⟨target, hl, ht⟩ edge
  rcases Nat.lt_or_eq_of_le order with earlier | rfl
  · exact .inl (Nat.lt_of_lt_of_le lt (Nat.le_trans (length_outline_take_le _ earlier) le))
  · obtain rfl : source = target := Option.some.inj (hk.symm.trans hl)
    exact .inr ⟨rfl, Groups.isCyclic_of_ne ht hr (irreflexive edge)⟩

end Report

end ClassOrder
