import ClassOrder.Analysis.Basic
import ClassOrder.Proofs.Report
import Mathlib

/-!
# Reports of analyses

An analysis that comes to its end has linked and grouped the records of the files it could decode
(`exists_linked_of_run`), so its report is an outline with one line for each record and one for each
cyclic group, in which the lines of dependencies come first.
-/

namespace ClassOrder

namespace Analysis

/-! ## What an analysis that came to its end has done -/

variable {env : Environment} {settings : Settings} {basePath : Text} {analysis : Analysis}
  {log : List LogLine}

theorem not_ok_stop (error basePath : Text) (failures : List Failure) :
    ¬ (stop error basePath failures).1.ok := by
  simp [stop, failed, Analysis.ok]

theorem exists_decoded_of_ofFiles {names : List Text}
    (h : ofFiles env settings basePath names = .ok (analysis, log)) (ok : analysis.ok) :
    ∃ decoded, Decoding.decodeAll env.files basePath names settings.decodeWorkers.val env.schedule =
      .ok decoded ∧ analysis = (conclude basePath decoded).1 := by
  obtain ⟨decoded, decodes, h⟩ := bind_eq_ok.1 h
  refine ⟨decoded, decodes, ?_⟩
  dsimp only at h
  split at h
  · cases h
    exact absurd ok (not_ok_stop _ _ _)
  · cases h
    rfl

theorem exists_names_of_ofDirectory
    (h : ofDirectory env settings basePath = .ok (analysis, log)) (ok : analysis.ok) :
    ∃ names log', Listing.classFiles env.files basePath = .ok names ∧
      ofFiles env settings basePath names = .ok (analysis, log') := by
  unfold ofDirectory at h
  split at h
  · split at h
    · next names listed =>
      obtain ⟨⟨analysis', log'⟩, files, h⟩ := bind_eq_ok.1 h
      cases h
      exact ⟨names, log', listed, files⟩
    · cases h
    · cases h
      exact absurd ok (not_ok_stop _ _ _)
  · cases h
    exact absurd ok (not_ok_stop _ _ _)

theorem exists_directory_of_run {config : Value} (h : run env config = .ok (analysis, log)) :
    ∃ settings basePath log', ofDirectory env settings basePath = .ok (analysis, log') := by
  obtain ⟨⟨analysis', log'⟩, settled, eq⟩ := bind_eq_ok.1 h
  cases eq
  obtain ⟨basePath, -, directory⟩ := bind_eq_ok.1 settled
  exact ⟨_, basePath, log', directory⟩

theorem exists_conclude_of_run {config : Value} (h : run env config = .ok (analysis, log))
    (ok : analysis.ok) : ∃ basePath decoded, analysis = (conclude basePath decoded).1 := by
  obtain ⟨settings, basePath, log', h⟩ := exists_directory_of_run h
  obtain ⟨names, log', -, h⟩ := exists_names_of_ofDirectory h ok
  obtain ⟨decoded, -, eq⟩ := exists_decoded_of_ofFiles h ok
  exact ⟨basePath, decoded, eq⟩

/-- The result of an analysis that came to its end, by the records that it linked. -/
theorem exists_linked_of_run {config : Value} (h : run env config = .ok (analysis, log))
    (ok : analysis.ok) :
    ∃ records basePath failures files, ∃ linked, linked = Links.connect records ∧
      analysis = succeeded basePath (Groups.markAll linked (Groups.ofLinked linked))
        (Groups.ofLinked linked) failures [("files", .int files)] := by
  obtain ⟨basePath, decoded, rfl⟩ := exists_conclude_of_run h ok
  exact ⟨_, _, _, _, _, rfl, rfl⟩

/-! ## The summary -/

section Summary

variable (records : Array ClassRecord) (groups : List Group) (failures : List Failure)

theorem find?_classes_succeeded (basePath : Text) (files : Value) :
    (succeeded basePath records groups failures [("files", files)]).summary.find? "classes" =
      some (.int records.size) := rfl

theorem find?_cyclic_groups_succeeded (basePath : Text) (files : Value) :
    (succeeded basePath records groups failures [("files", files)]).summary.find?
      "cyclic_groups" = some (.int (Groups.cyclicCount groups)) := rfl

end Summary

/-! ## The report of an analysis -/

/-- The report of an analysis that came to its end is written from an outline. It has one line for
each record and one for each cyclic group, every record is the subject of one line, and the line of
a record comes behind those of the records that it links to, unless they are in one cyclic group. -/
theorem report_of_run {config : Value} (h : run env config = .ok (analysis, log))
    (ok : analysis.ok) :
    ∃ lines, analysis.report = .ok lines ∧
      lines = (Report.outline analysis.groups).map (Report.Line.text analysis.records) ∧
      analysis.summary.find? "classes" = some (.int analysis.records.size) ∧
      analysis.summary.find? "cyclic_groups" =
        some (.int (Groups.cyclicCount analysis.groups)) ∧
      lines.length = analysis.records.size + Groups.cyclicCount analysis.groups ∧
      ((Report.outline analysis.groups).filterMap Report.Line.record?).Perm
        (List.range analysis.records.size) ∧
      ∀ r t, Links.Edge analysis.records r t → t < analysis.records.size ∧
        ∀ (p q : Nat) (source target : Group),
        (Report.outline analysis.groups)[p]? = some (.subject source r) →
        (Report.outline analysis.groups)[q]? = some (.subject target t) →
          q < p ∨ source = target ∧ source.isCyclic := by
  obtain ⟨records, basePath, failures, files, linked, eq, rfl⟩ := exists_linked_of_run h ok
  have mirrored : Links.Mirrored linked := eq ▸ Links.mirrored_connect records
  have irreflexive : ∀ {i j}, Links.Edge linked i j → j ≠ i := eq ▸ Links.ne_of_edge_connect
  have size := Groups.size_markAll linked (Groups.ofLinked linked)
  have perm := (Groups.partitions_ofLinked linked).perm
  refine ⟨_, Report.lines_ofLinked mirrored, rfl, find?_classes_succeeded ..,
    find?_cyclic_groups_succeeded .., ?_, ?_, ?_⟩
  · rw [List.length_map, Report.length_outline, perm.length_eq, List.length_range, succeeded, size]
  · rw [Report.filterMap_record?_outline, succeeded, size]
    exact perm
  · intro r t edge
    have edge : Links.Edge linked r t := Groups.edge_markAll linked _ ▸ edge
    refine ⟨size.symm ▸ mirrored.lt_of_edge edge, fun p q source target hp hq => ?_⟩
    exact Report.lt_or_eq_of_edge mirrored irreflexive edge hp hq

/-- The bytes of one of two classes that refer to each other, by the slot of its own name. -/
def mutualClass (this : UInt8) : List UInt8 :=
  [0xCA, 0xFE, 0xBA, 0xBE, 0, 0, 0, 52, 0, 5, 1, 0, 1, 0x41, 7, 0, 1, 1, 0, 1, 0x42, 7, 0, 3,
    0, 0x21, 0, this, 0, 0, 0, 0, 0, 0, 0, 0, 0, 0]

/-- A directory with two classes that refer to each other. -/
def mutualPair : Environment where
  currentDirectory := "/"
  homes := { own := some "/", ofUser := fun _ => none }
  files :=
    { isDirectory := fun _ => true
      isFile := fun _ => true
      list := fun _ => .ok [("B.class" : Text), ("A.class" : Text)]
      read := fun path => .ok (mutualClass (if path = ("/A.class" : Text) then 2 else 4)) }

def mutualDecoded : List (Text × Outcome) :=
  [("A.class", .ofBytes (mutualClass 2)), ("B.class", .ofBytes (mutualClass 4))]

theorem run_mutualPair :
    ∃ log, run mutualPair .null = .ok ((conclude "/" mutualDecoded).1, log) := by
  have listed : Listing.classFiles mutualPair.files "/" =
      .ok [("A.class" : Text), ("B.class" : Text)] := by
    cbv
  have directory : ∃ log, ofDirectory mutualPair (Settings.defaults "/") "/" =
      .ok ((conclude "/" mutualDecoded).1, log) := by
    rw [ofDirectory, if_pos (show mutualPair.files.isDirectory "/" = true from rfl), listed]
    exact ⟨_, rfl⟩
  obtain ⟨log, directory⟩ := directory
  have settled : ofSettings mutualPair (Settings.defaults "/") =
      .ok ((conclude "/" mutualDecoded).1, log) := directory
  change ∃ log, (ofSettings mutualPair (Settings.defaults "/") >>= _) = _
  rw [settled]
  exact ⟨_, rfl⟩

/-- The record of one of the two classes, by its name and that of the other one. -/
def mutualRecord (name other : Text) : ClassRecord :=
  { fileName := name ++ ".class", className := name, classPath := name, references := [other] }

theorem records_mutualDecoded :
    Decoding.records mutualDecoded = [mutualRecord "A" "B", mutualRecord "B" "A"] := by
  have first : ClassFile.ofBytes (mutualClass 2) =
      .ok ⟨"A", [("A" : Text), ("B" : Text)], [], [], []⟩ := by
    cbv
  have second : ClassFile.ofBytes (mutualClass 4) =
      .ok ⟨"B", [("A" : Text), ("B" : Text)], [], [], []⟩ := by
    cbv
  have single (name : Text) : distinct [name] = [name] := by simp [distinct, distinctOnto]
  have ofFirst : ClassFile.references ⟨"A", [("A" : Text), ("B" : Text)], [], [], []⟩ =
      [("B" : Text)] := single "B"
  have ofSecond : ClassFile.references ⟨"B", [("A" : Text), ("B" : Text)], [], [], []⟩ =
      [("A" : Text)] := single "A"
  simp only [Decoding.records, mutualDecoded, Outcome.ofBytes, ClassSummary.ofBytes, first, second,
    Except.map, ClassFile.summary, ofFirst, ofSecond]
  decide +kernel

/-- The two records, linked to each other. -/
def mutualLinked : Array ClassRecord :=
  #[{ mutualRecord "A" "B" with outgoing := [1], incoming := [1] },
    { mutualRecord "B" "A" with outgoing := [0], incoming := [0] }]

theorem connect_mutual :
    Links.connect #[mutualRecord "A" "B", mutualRecord "B" "A"] = mutualLinked := by
  simp only [Links.connect, Links.definitions, Links.targets, mutualRecord, List.zipIdx_cons,
    List.zipIdx_nil, List.foldl_cons, List.foldl_nil, Std.HashMap.getElem?_insert]
  decide +kernel

theorem conclude_mutualDecoded :
    (conclude "/" mutualDecoded).1.groups = [⟨[0, 1]⟩] ∧
      (conclude "/" mutualDecoded).1.records = Groups.markAll mutualLinked [⟨[0, 1]⟩] := by
  have linked : Links.connect (Decoding.records mutualDecoded).toArray = mutualLinked := by
    rw [records_mutualDecoded]
    exact connect_mutual
  have groups : Groups.ofLinked mutualLinked = [⟨[0, 1]⟩] := by
    cbv
  simp only [conclude, succeeded, linked, groups]
  trivial

theorem report_of_run_mutualPair :
    ∃ analysis log, run mutualPair .null = .ok (analysis, log) ∧ analysis.ok ∧
      analysis.report = .ok [("[A, B]" : Text), ("    A -> [B]" : Text), ("    B -> [A]" : Text)] := by
  obtain ⟨log, h⟩ := run_mutualPair
  obtain ⟨groups, records⟩ := conclude_mutualDecoded
  obtain ⟨lines, report, written, -⟩ := report_of_run h rfl
  have written' : lines = [("[A, B]" : Text), ("    A -> [B]" : Text), ("    B -> [A]" : Text)] := by
    rw [written, groups, records]
    decide +kernel
  exact ⟨_, log, h, rfl, written' ▸ report⟩

end Analysis

end ClassOrder
