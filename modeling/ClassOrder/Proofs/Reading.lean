import ClassOrder.Proofs.Report

/-!
# Reading reports

A report of plain class names tells what it was made from. The names in a line are its words, which
spaces, commas and brackets part (`words_bracketed`, `words_entryLine`); the first mark of a line
tells whether it is a header, a member of the group above or a group of its own. So reading the lines
from the last one to the first gives the groups back (`readBlocks_flatMap_blockLines`), and two reports
have the same lines exactly if they show the same groups.
-/

namespace ClassOrder

namespace Report

/-! ## Plain names -/

/-- The first code point of a header. -/
def openMark : CodePoint := 0x5B

/-- The first code point of the line of a member. -/
def blankMark : CodePoint := 0x20

/-- What stands around the names in a line. -/
def marks : Text := " ,[]"

def isMark (c : CodePoint) : Bool := marks.contains c

/-- A name that can be told from what stands around it. -/
def IsPlain (name : Text) : Prop := name ≠ [] ∧ ∀ c ∈ name, isMark c = false

instance (name : Text) : Decidable (IsPlain name) :=
  inferInstanceAs (Decidable (name ≠ [] ∧ ∀ c ∈ name, isMark c = false))

/-- The parts of a line between marks. -/
def words (line : Text) : List Text := (line.splitOnP isMark).filter (!·.isEmpty)

theorem words_append_mark (s t : Text) {c : CodePoint} (mark : isMark c) :
    words (s ++ c :: t) = words s ++ words t := by
  rw [words, List.splitOnP_append_cons s t mark, List.filter_append]
  rfl

theorem words_mark (t : Text) {c : CodePoint} (mark : isMark c) : words (c :: t) = words t :=
  words_append_mark [] t mark

theorem words_plain {name : Text} (plain : IsPlain name) : words name = [name] := by
  obtain ⟨nonempty, bare⟩ := plain
  rw [words, List.splitOnP_eq_singleton bare, List.filter_eq_self]
  simpa using nonempty

theorem words_joinWith {names : List Text} (plain : ∀ name ∈ names, IsPlain name) :
    words (Text.joinWith ", " names) = names := by
  induction names with
  | nil => rfl
  | cons name names ih =>
    obtain ⟨first, later⟩ := List.forall_mem_cons.1 plain
    cases names with
    | nil =>
      rw [Text.joinWith, List.intercalate_singleton]
      exact words_plain first
    | cons next names =>
      have joined : Text.joinWith ", " (name :: next :: names) =
          name ++ 0x2C :: 0x20 :: Text.joinWith ", " (next :: names) := by
        rw [Text.joinWith, List.intercalate_cons_cons, List.append_assoc]
        rfl
      rw [joined, words_append_mark name _ rfl, words_mark _ rfl, words_plain first, ih later]
      rfl

theorem words_bracketed {names : List Text} (plain : ∀ name ∈ names, IsPlain name) :
    words (Text.bracketed names) = names := by
  have open_ : Text.bracketed names = 0x5B :: (Text.joinWith ", " names ++ [0x5D]) := rfl
  rw [open_, words_mark _ rfl, words_append_mark _ [] rfl, words_joinWith plain]
  exact List.append_nil names

/-! ## Groups as a report shows them -/

/-- A class name, and the names of the classes that it refers to. -/
abbrev Entry := Text × List Text

/-- The members of a group in order. -/
abbrev Block := List Entry

namespace Entry

def line (entry : Entry) : Text := entry.1 ++ " -> " ++ Text.bracketed entry.2

def IsPlain (entry : Entry) : Prop :=
  Report.IsPlain entry.1 ∧ ∀ name ∈ entry.2, Report.IsPlain name

/-- What a line says about a class; the second word is the arrow. -/
def ofLine (line : Text) : Entry := ((words line).headD [], (words line).drop 2)

end Entry

theorem isPlain_arrow : IsPlain "->" := by decide

theorem words_entryLine {entry : Entry} (plain : entry.IsPlain) :
    words entry.line = entry.1 :: "->" :: entry.2 := by
  have parts : entry.line =
      entry.1 ++ 0x20 :: (Text.ofString "->" ++ 0x20 :: Text.bracketed entry.2) := by
    simp only [Entry.line, List.append_assoc]
    rfl
  rw [parts, words_append_mark _ _ rfl, words_append_mark _ _ rfl, words_plain plain.1,
    words_plain isPlain_arrow, words_bracketed plain.2]
  rfl

theorem words_indent (line : Text) : words (indent ++ line) = words line := by
  have blanks : indent ++ line = 0x20 :: 0x20 :: 0x20 :: 0x20 :: line := rfl
  rw [blanks, words_mark _ rfl, words_mark _ rfl, words_mark _ rfl, words_mark _ rfl]

theorem ofLine_line {entry : Entry} (plain : entry.IsPlain) : Entry.ofLine entry.line = entry := by
  rw [Entry.ofLine, words_entryLine plain]
  rfl

theorem ofLine_indent (line : Text) : Entry.ofLine (indent ++ line) = Entry.ofLine line := by
  rw [Entry.ofLine, words_indent, Entry.ofLine]

theorem head?_line {entry : Entry} (plain : entry.IsPlain) :
    ∃ c, entry.line.head? = some c ∧ isMark c = false := by
  obtain ⟨⟨nonempty, bare⟩, -⟩ := plain
  obtain ⟨c, name, split⟩ := List.exists_cons_of_ne_nil nonempty
  refine ⟨c, ?_, bare c (by simp [split])⟩
  rw [Entry.line, split]
  rfl

/-- The lines of a group. -/
def blockLines (block : Block) : List Text :=
  if 1 < block.length then
    Text.bracketed (block.map Prod.fst) :: block.map fun entry => indent ++ entry.line
  else block.map Entry.line

/-- The group at some positions. -/
def blockOf (records : Array ClassRecord) (group : Group) : Block :=
  group.members.map fun i => (nameAt records i, targetNamesAt records i)

/-- The groups that a report shows. -/
def sketch (records : Array ClassRecord) (groups : List Group) : List Block :=
  groups.map (blockOf records)

theorem map_text_groupOutline (records : Array ClassRecord) (group : Group) :
    (groupOutline group).map (Line.text records) = blockLines (blockOf records group) := by
  have length : 1 < (blockOf records group).length ↔ group.isCyclic := by
    simp [blockOf, Group.isCyclic]
  have names : (blockOf records group).map Prod.fst = group.members.map (nameAt records) := by
    simp [blockOf]
  rw [groupOutline, blockLines, List.map_append, List.map_map]
  by_cases cyclic : group.isCyclic
  · rw [if_pos cyclic, if_pos (length.2 cyclic), names, blockOf, List.map_map]
    simp [Line.text, cyclic, Entry.line]
  · rw [if_neg cyclic, if_neg (mt length.1 cyclic), blockOf, List.map_map]
    simp [Line.text, cyclic, Entry.line]

/-! ## Reading lines -/

/-- What a line adds to what is read from the lines behind it: the members of a group whose header is
yet to come, and the groups after it. -/
def readOnto (line : Text) (behind : Block × List Block) : Block × List Block :=
  if line.head? = some openMark then ([], behind.1 :: behind.2)
  else if line.head? = some blankMark then (Entry.ofLine line :: behind.1, behind.2)
  else ([], [Entry.ofLine line] :: behind.2)

theorem readOnto_bracketed (names : List Text) (behind : Block × List Block) :
    readOnto (Text.bracketed names) behind = ([], behind.1 :: behind.2) :=
  if_pos rfl

theorem readOnto_indent {entry : Entry} (plain : entry.IsPlain) (behind : Block × List Block) :
    readOnto (indent ++ entry.line) behind = (entry :: behind.1, behind.2) := by
  have blank : (indent ++ entry.line).head? = some blankMark := rfl
  rw [readOnto, blank, if_neg (by decide), if_pos rfl, ofLine_indent, ofLine_line plain]

theorem readOnto_line {entry : Entry} (plain : entry.IsPlain) (behind : Block × List Block) :
    readOnto entry.line behind = ([], [entry] :: behind.2) := by
  obtain ⟨c, head, bare⟩ := head?_line plain
  have ne_of_isMark : ∀ mark, isMark mark → some c ≠ some mark := by
    rintro mark isMark same
    cases same
    rw [bare] at isMark
    cases isMark
  rw [readOnto, head, if_neg (ne_of_isMark openMark rfl), if_neg (ne_of_isMark blankMark rfl),
    ofLine_line plain]

theorem foldr_readOnto_members {block : Block} (plain : ∀ entry ∈ block, entry.IsPlain)
    (behind : Block × List Block) :
    (block.map fun entry => indent ++ entry.line).foldr readOnto behind =
      (block ++ behind.1, behind.2) := by
  induction block with
  | nil => rfl
  | cons entry block ih =>
    obtain ⟨first, later⟩ := List.forall_mem_cons.1 plain
    rw [List.map_cons, List.foldr_cons, ih later, readOnto_indent first]
    rfl

/-- Where no member is left over behind a group, its lines are read as the group. -/
theorem foldr_readOnto_blockLines {block : Block} (nonempty : block ≠ [])
    (plain : ∀ entry ∈ block, entry.IsPlain) (blocks : List Block) :
    (blockLines block).foldr readOnto ([], blocks) = ([], block :: blocks) := by
  match block, nonempty with
  | [entry], _ => exact readOnto_line (plain entry (by simp)) ([], blocks)
  | entry :: next :: entries, _ =>
    have cyclic : 1 < (entry :: next :: entries).length := by simp
    rw [blockLines, if_pos cyclic, List.foldr_cons, foldr_readOnto_members plain,
      readOnto_bracketed, List.append_nil]

/-- The groups that lines show. -/
def readBlocks (lines : List Text) : List Block := (lines.foldr readOnto ([], [])).2

theorem readBlocks_flatMap_blockLines {blocks : List Block}
    (nonempty : ∀ block ∈ blocks, block ≠ [])
    (plain : ∀ block ∈ blocks, ∀ entry ∈ block, entry.IsPlain) :
    readBlocks (blocks.flatMap blockLines) = blocks := by
  have whole : (blocks.flatMap blockLines).foldr readOnto ([], []) = ([], blocks) := by
    -- No member is left over behind the last group, and none is behind any group before it.
    induction blocks with
    | nil => rfl
    | cons block blocks ih =>
      obtain ⟨first, later⟩ := List.forall_mem_cons.1 nonempty
      obtain ⟨plainFirst, plainLater⟩ := List.forall_mem_cons.1 plain
      rw [List.flatMap_cons, List.foldr_append, ih later plainLater,
        foldr_readOnto_blockLines first plainFirst]
  rw [readBlocks, whole]

example : readBlocks ["C -> []", "[A, B]", "    A -> [B, C]", "    B -> [A]"] =
    ([[("C", [])], [("A", ["B", "C"]), ("B", ["A"])]] : List Block) := by
  decide

/-! ## Reports -/

/-- Records and groups whose report can be read: no group is empty, every position has a record, and
the class names are plain. -/
structure Legible (records : Array ClassRecord) (groups : List Group) : Prop where
  ne_nil : ∀ group ∈ groups, group.members ≠ []
  lt_size : ∀ group ∈ groups, ∀ m ∈ group.members, m < records.size
  inRange : Groups.inRange records ClassRecord.outgoing
  plain : ∀ record ∈ records, IsPlain record.className

namespace Legible

variable {records : Array ClassRecord} {groups : List Group}

theorem lt_of_edge (h : Legible records groups) {i j : Nat} (edge : Links.Edge records i j) :
    j < records.size :=
  Groups.lt_of_leads h.inRange edge

theorem isPlain_nameAt (h : Legible records groups) {i : Nat} (lt : i < records.size) :
    IsPlain (nameAt records i) := by
  rw [nameAt, Array.getElem?_eq_getElem lt]
  exact h.plain records[i] (Array.getElem_mem lt)

theorem isPlain_entry (h : Legible records groups) {i : Nat} (lt : i < records.size) :
    Entry.IsPlain (nameAt records i, targetNamesAt records i) := by
  refine ⟨h.isPlain_nameAt lt, fun name mem => ?_⟩
  obtain ⟨j, target, rfl⟩ := List.mem_map.1 mem
  have at_i := Array.getElem?_eq_getElem lt
  rw [at_i] at target
  exact h.isPlain_nameAt (h.lt_of_edge ⟨records[i], at_i, target⟩)

theorem lines_eq (h : Legible records groups) :
    lines records groups = .ok ((sketch records groups).flatMap blockLines) := by
  rw [lines_eq_outline h.lt_of_edge h.ne_nil h.lt_size, outline, List.map_flatMap, sketch,
    List.flatMap_map]
  simp only [map_text_groupOutline]

theorem readBlocks_sketch (h : Legible records groups) :
    readBlocks ((sketch records groups).flatMap blockLines) = sketch records groups := by
  apply readBlocks_flatMap_blockLines
  · intro block mem
    obtain ⟨group, hg, rfl⟩ := List.mem_map.1 mem
    simpa [blockOf] using h.ne_nil group hg
  · intro block mem entry he
    obtain ⟨group, hg, rfl⟩ := List.mem_map.1 mem
    obtain ⟨m, hm, rfl⟩ := List.mem_map.1 he
    exact h.isPlain_entry (h.lt_size group hg m hm)

end Legible

/-- Legible reports can be made, and they have the same lines exactly if they show the same groups:
the same class names in the same order, each with the same names of the classes it refers to. -/
theorem lines_eq_iff_sketch_eq {records records' : Array ClassRecord} {groups groups' : List Group}
    (h : Legible records groups) (h' : Legible records' groups') :
    (∃ shown, lines records groups = .ok shown) ∧ (∃ shown, lines records' groups' = .ok shown) ∧
      (lines records groups = lines records' groups' ↔
        sketch records groups = sketch records' groups') := by
  refine ⟨⟨_, h.lines_eq⟩, ⟨_, h'.lines_eq⟩, ?_⟩
  rw [h.lines_eq, h'.lines_eq, Except.ok.injEq]
  constructor
  · intro same
    rw [← h.readBlocks_sketch, ← h'.readBlocks_sketch, same]
  · intro same
    rw [same]

def recordNamed (className : Text) (outgoing : List Nat) : ClassRecord :=
  { fileName := [], className, classPath := [], references := [], outgoing }

/-- A class, and two others that refer to each other and one of them to the first class. -/
def pairBehind : Array ClassRecord :=
  #[recordNamed "C" [], recordNamed "A" [2, 0], recordNamed "B" [1]]

/-- The same classes at other positions. -/
def pairInFront : Array ClassRecord :=
  #[recordNamed "A" [1, 2], recordNamed "B" [0], recordNamed "C" []]

theorem lines_eq_iff_sketch_eq_moved :
    Legible pairBehind [⟨[0]⟩, ⟨[1, 2]⟩] ∧ Legible pairInFront [⟨[2]⟩, ⟨[0, 1]⟩] ∧
      lines pairBehind [⟨[0]⟩, ⟨[1, 2]⟩] = lines pairInFront [⟨[2]⟩, ⟨[0, 1]⟩] ∧
      sketch pairBehind [⟨[0]⟩, ⟨[1, 2]⟩] = sketch pairInFront [⟨[2]⟩, ⟨[0, 1]⟩] := by
  have behind : Legible pairBehind [⟨[0]⟩, ⟨[1, 2]⟩] :=
    ⟨by decide, by decide, by decide +kernel, by decide +kernel⟩
  have inFront : Legible pairInFront [⟨[2]⟩, ⟨[0, 1]⟩] :=
    ⟨by decide, by decide, by decide +kernel, by decide +kernel⟩
  have same : lines pairBehind [⟨[0]⟩, ⟨[1, 2]⟩] = lines pairInFront [⟨[2]⟩, ⟨[0, 1]⟩] := by
    cbv
  exact ⟨behind, inFront, same, (lines_eq_iff_sketch_eq behind inFront).2.2.1 same⟩

end Report

end ClassOrder
