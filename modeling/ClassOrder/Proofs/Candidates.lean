import ClassOrder.Proofs.Analysis
import ClassOrder.Proofs.Endings
import ClassOrder.Proofs.FileTree
import ClassOrder.Proofs.Groups
import ClassOrder.Proofs.Links

/-!
# What becomes of the entries of a directory

Every candidate of a directory ends up in one record or in one failure, in the order of the
candidates, and the counts of the summary add up (`inventory_of_run`). Behind this stands a loop
over the decoded files that numbers records as they come (`Collected.ofDecoded_eq`), and that
linking and grouping change nothing else in a record (`map_records_conclude`).
-/

namespace ClassOrder

/-- Links and groups aside, linking leaves records as they are. -/
theorem Links.map_connect {α : Type} {f : ClassRecord → α}
    (frame : ∀ record outgoing incoming, f { record with outgoing, incoming } = f record)
    (records : Array ClassRecord) : (connect records).map f = records.map f := by
  apply Array.ext_getElem?
  intro i
  rw [Array.getElem?_map, Array.getElem?_map, getElem?_connect, Option.map_map]
  congr 1
  funext record
  exact frame record _ _

/-- A record without what it is linked to and grouped with. -/
def ClassRecord.unlinked (record : ClassRecord) : ClassRecord :=
  { record with outgoing := [], incoming := [], group := none }

namespace Analysis

variable {env : Environment} {config : Value} {path : Text} {decoded : List (Text × Outcome)}
  {analysis : Analysis} {log : List LogLine}

/-! ## Collecting one file after another -/

namespace Collected

/-- Records in their places, and a report of each failure. -/
def tidy (records : List ClassRecord) (failures : List Failure) : Collected :=
  ⟨records.zipIdx, failures, failures.map skipping⟩

theorem add_tidy (records : List ClassRecord) (failures : List Failure) (pair : Text × Outcome) :
    add (tidy records failures) pair =
      tidy (records ++ Decoding.records [pair]) (failures ++ Decoding.failures [pair]) := by
  obtain ⟨fileName, summary | reason⟩ := pair
  · simp [add, tidy, Decoding.records, Decoding.failures, List.zipIdx_append]
  · simp [add, tidy, Decoding.records, Decoding.failures]

theorem foldl_add_tidy (decoded : List (Text × Outcome)) (records : List ClassRecord)
    (failures : List Failure) :
    decoded.foldl add (tidy records failures) =
      tidy (records ++ Decoding.records decoded) (failures ++ Decoding.failures decoded) := by
  induction decoded generalizing records failures with
  | nil => simp [Decoding.records, Decoding.failures]
  | cons pair decoded ih =>
    rw [List.foldl_cons, add_tidy, ih, List.append_assoc, List.append_assoc]
    simp only [Decoding.records, Decoding.failures, ← List.filterMap_append, List.singleton_append]

theorem ofDecoded_eq (decoded : List (Text × Outcome)) :
    ofDecoded decoded = tidy (Decoding.records decoded) (Decoding.failures decoded) :=
  foldl_add_tidy decoded [] []

end Collected

/-! ## Records of a finished analysis -/

theorem map_unlinked_records (decoded : List (Text × Outcome)) :
    (Decoding.records decoded).map ClassRecord.unlinked = Decoding.records decoded := by
  refine (List.map_congr_left fun record mem => ?_).trans (List.map_id _)
  obtain ⟨⟨name, outcome⟩, -, made⟩ := List.mem_filterMap.1 mem
  cases outcome with
  | decoded summary =>
    cases made
    rfl
  | failed reason => simp at made

theorem map_records_conclude {α : Type} {f : ClassRecord → α}
    (frame : ∀ record outgoing incoming group,
      f { record with outgoing, incoming, group } = f record)
    (path : Text) (decoded : List (Text × Outcome)) :
    (conclude path decoded).1.records.toList.map f = (Decoding.records decoded).map f := by
  have marked := Groups.map_markAll (fun record k => frame record record.outgoing record.incoming k)
    (Links.connect (Decoding.records decoded).toArray)
    (Groups.ofLinked (Links.connect (Decoding.records decoded).toArray))
  have linked := Links.map_connect
    (fun record outgoing incoming => frame record outgoing incoming record.group)
    (Decoding.records decoded).toArray
  have whole := congrArg Array.toList (marked.trans linked)
  rw [Array.toList_map, Array.toList_map] at whole
  exact whole

/-- What holds of a record by its file and its names holds of the records of an analysis. -/
theorem forall_mem_records_conclude {p : ClassRecord → Prop}
    (frame : ∀ record outgoing incoming group,
      p { record with outgoing, incoming, group } = p record)
    (h : ∀ record ∈ Decoding.records decoded, p record) :
    ∀ record ∈ (conclude path decoded).1.records, p record := by
  intro record mem
  have image : p record ∈ (Decoding.records decoded).map p := by
    rw [← map_records_conclude frame path]
    exact List.mem_map_of_mem (Array.mem_toList_iff.2 mem)
  obtain ⟨original, inside, same⟩ := List.mem_map.1 image
  exact same ▸ h original inside

/-! ## Reports of failures -/

/-- The messages that tell of an error. -/
def errors (log : List LogLine) : List LogLine := log.filter (·.severity = .error)

theorem errors_append (log more : List LogLine) :
    errors (log ++ more) = errors log ++ errors more :=
  List.filter_append ..

theorem errors_eq_nil (h : ∀ line ∈ log, line.severity ≠ .error) : errors log = [] := by
  simpa [errors] using h

theorem errors_skipping (failures : List Failure) :
    errors (failures.map skipping) = failures.map skipping := by
  simp [errors, skipping]

theorem errors_openingLog (corrections : List Correction) :
    errors (openingLog corrections) = [] := by
  apply errors_eq_nil
  intro line mem
  simp only [openingLog, Settings.readingLog, List.mem_append, List.mem_singleton,
    List.mem_filterMap, List.mem_map] at mem
  rcases mem with (rfl | ⟨correction, -, made⟩) | ⟨correction, -, rfl⟩
  · decide
  · split at made
    · cases made
      simp
    · cases made
  · simp [configurationWarning]

theorem errors_decodingLog (decoded : List (Text × Outcome)) :
    errors (decodingLog decoded) = [] := by
  apply errors_eq_nil
  intro line mem
  obtain ⟨⟨name, outcome⟩, -, mem⟩ := List.mem_flatMap.1 mem
  cases outcome with
  | decoded summary => simp_all [Outcome.log, ClassSummary.log]
  | failed reason => simp [Outcome.log] at mem

theorem errors_shadowings (files : Std.HashMap Text Text) (records : List ClassRecord) :
    errors (Links.shadowings files records) = [] := by
  induction records generalizing files with
  | nil => rfl
  | cons record records ih =>
    rw [Links.shadowings, errors_append, ih, List.append_nil]
    cases files[record.classPath]? with
    | none => rfl
    | some earlier => rfl

theorem errors_conclude (path : Text) (decoded : List (Text × Outcome)) :
    errors (conclude path decoded).2 = (Decoding.failures decoded).map skipping := by
  simp only [conclude, errors_append, errors_skipping, Links.log, errors_shadowings]
  simp [errors, Groups.log, finished]

/-! ## Analyses that came to their end -/

theorem exists_concluded_of_ends {settings : Settings}
    (ended : Ends env settings path (.ok (analysis, log))) (ok : analysis.ok) :
    ∃ names decoded, Listing.classFiles env.files path = .ok names ∧
      Decoding.inOrder env.files path names = .ok decoded ∧ analysis = (conclude path decoded).1 ∧
      log = Listing.log path names ++ (decodingLog decoded ++ (conclude path decoded).2) := by
  cases ended with
  | noDirectory => cases ok
  | noListing => cases ok
  | refused => cases ok
  | concluded isDirectory listed decodes tolerated => exact ⟨_, _, listed, decodes, rfl, rfl⟩

/-- A run that came to its end has listed and decoded the files of the directory that its settings
name, and has told of no other errors than failures. -/
theorem exists_concluded_of_run (h : run env config = .ok (analysis, log)) (ok : analysis.ok) :
    ∃ path names decoded,
      Path.resolve env.currentDirectory env.homes
        (Settings.ofValue env.currentDirectory config).value.inputPath = .ok path ∧
      Listing.classFiles env.files path = .ok names ∧
      Decoding.inOrder env.files path names = .ok decoded ∧ analysis = (conclude path decoded).1 ∧
      errors log = (Decoding.failures decoded).map skipping := by
  obtain ⟨path, log', resolved, ended, rfl⟩ := exists_ends_of_run h
  obtain ⟨names, decoded, listed, decodes, rfl, rfl⟩ := exists_concluded_of_ends ended ok
  refine ⟨path, names, decoded, resolved, listed, decodes, rfl, ?_⟩
  rw [errors_append, errors_openingLog, errors_append, errors_append, errors_decodingLog,
    errors_conclude]
  rfl

theorem run_of_decoded {names : List Text}
    (resolved : Path.resolve env.currentDirectory env.homes
      (Settings.ofValue env.currentDirectory config).value.inputPath = .ok path)
    (isDirectory : env.files.isDirectory path)
    (listed : Listing.classFiles env.files path = .ok names)
    (decodes : Decoding.inOrder env.files path names = .ok decoded)
    (lenient : (Settings.ofValue env.currentDirectory config).value.skipMalformed = true) :
    ∃ log, run env config = .ok ((conclude path decoded).1, log) := by
  rw [run_of_resolved resolved, ofDirectory_of_listed isDirectory listed, decodes]
  simp only [Except.map, verdict_of_tolerated (.inl lenient)]
  exact ⟨_, rfl⟩

theorem run_rooted {tree : FileTree} {faults : FileTree.Faults} {names : List Text}
    (listed : Listing.classFiles (tree.rooted faults).files "/" = .ok names)
    (decodes : Decoding.inOrder (tree.rooted faults).files "/" names = .ok decoded) :
    ∃ log, run (tree.rooted faults) .null = .ok ((conclude "/" decoded).1, log) := by
  have isDirectory : (tree.rooted faults).files.isDirectory "/" = true := by
    simp only [FileTree.rooted, FileTree.fileSystem, FileTree.find_root]
  exact run_of_decoded rfl isDirectory listed decodes rfl

/-! ## The candidates of a directory -/

theorem size_records_conclude (path : Text) (decoded : List (Text × Outcome)) :
    (conclude path decoded).1.records.size = (Decoding.records decoded).length := by
  have names := map_records_conclude (f := ClassRecord.fileName) (fun _ _ _ _ => rfl) path decoded
  simpa using congrArg List.length names

/-- The counts in the summary of an analysis of some files add up. -/
structure Tallies (analysis : Analysis) (count : Nat) : Prop where
  files : analysis.summary.find? "files" = some (.int count)
  classes : analysis.summary.find? "classes" = some (.int analysis.records.size)
  skipped : analysis.summary.find? "skipped" = some (.int analysis.failures.length)
  cyclic : analysis.summary.find? "cyclic_groups" =
    some (.int (analysis.groups.countP fun group => 1 < group.members.length))
  length_cyclicGroups : analysis.cyclicGroups.length =
    analysis.groups.countP fun group => 1 < group.members.length
  files_eq : count = analysis.records.size + analysis.failures.length
  classes_eq : analysis.records.size =
    (analysis.groups.map fun group => group.members.length).sum

/-- What an analysis that came to its end makes of the entries of a directory. -/
structure Inventory (files : FileSystem) (directory : Text) (entries candidates : List Text)
    (analysis : Analysis) (log : List LogLine) : Prop where
  mem_candidates : ∀ name, name ∈ candidates ↔ name ∈ entries ∧ Listing.suffix <:+ name ∧
    nestedMark ∉ name ∧ files.isFile (Path.join directory name)
  increasing : candidates.Pairwise (· < ·)
  /-- Each candidate is in one record or in one failure. -/
  once : ∀ name ∈ candidates, (analysis.records.toList.map ClassRecord.fileName).count name +
    (analysis.failures.map Failure.fileName).count name = 1
  records : analysis.records.toList.map ClassRecord.fileName =
    candidates.filter (Decoding.decodes files directory)
  failures : analysis.failures.map Failure.fileName =
    candidates.filter (!Decoding.decodes files directory ·)
  content : ∀ record ∈ analysis.records, Outcome.ofFile files directory record.fileName =
    .ok (.decoded ⟨record.classPath, record.references⟩)
  reason : ∀ failure ∈ analysis.failures, Outcome.ofFile files directory failure.fileName =
    .ok (.failed failure.reason)
  errors : errors log = analysis.failures.map fun failure =>
    ⟨.error, "Skipping " ++ failure.fileName ++ ": " ++ failure.reason⟩
  /-- The records are those of a loop over the decoded files, which numbers them by their places. -/
  numbered : ∃ decoded, decoded.map Prod.fst = candidates ∧
    (∀ pair ∈ decoded, Outcome.ofFile files directory pair.1 = .ok pair.2) ∧
    (Collected.ofDecoded decoded).records =
      (analysis.records.toList.map ClassRecord.unlinked).zipIdx
  className : ∀ record ∈ analysis.records, record.className ++ Listing.suffix = record.fileName
  nodup_className : (analysis.records.toList.map ClassRecord.className).Nodup
  tallies : Tallies analysis candidates.length

theorem find?_files_succeeded (path : Text) (records : Array ClassRecord) (groups : List Group)
    (failures : List Failure) (files : Value) :
    (succeeded path records groups failures [("files", files)]).summary.find? "files" =
      some files := rfl

theorem find?_skipped_succeeded (path : Text) (records : Array ClassRecord) (groups : List Group)
    (failures : List Failure) (files : Value) :
    (succeeded path records groups failures [("files", files)]).summary.find? "skipped" =
      some (.int failures.length) := rfl

theorem length_cyclicGroups (analysis : Analysis) :
    analysis.cyclicGroups.length = Groups.cyclicCount analysis.groups := by
  have places : analysis.groups.zipIdx.map Prod.fst = analysis.groups := List.zipIdx_map_fst ..
  rw [cyclicGroups, List.length_filterMap_eq_countP, Groups.cyclicCount]
  conv_rhs => rw [← places, List.countP_map]
  congr 1
  funext entry
  cases cyclic : entry.1.isCyclic <;> simp [cyclic]

theorem tallies_conclude (path : Text) (decoded : List (Text × Outcome)) :
    Tallies (conclude path decoded).1 decoded.length where
  files := find?_files_succeeded ..
  classes := find?_classes_succeeded ..
  skipped := find?_skipped_succeeded ..
  cyclic := find?_cyclic_groups_succeeded ..
  length_cyclicGroups := length_cyclicGroups _
  files_eq := by
    rw [size_records_conclude]
    exact (Decoding.length_records_add_length_failures decoded).symm
  classes_eq := by
    have perm :=
      (Groups.partitions_ofLinked (Links.connect (Decoding.records decoded).toArray)).perm
    have size := perm.length_eq
    rw [List.length_flatMap, List.length_range] at size
    exact (Groups.size_markAll _ _).trans size.symm

theorem count_filter_add_count_filter {names : List Text} (nodup : names.Nodup) {name : Text}
    (mem : name ∈ names) (p : Text → Bool) :
    (names.filter p).count name + (names.filter (!p ·)).count name = 1 := by
  rw [← List.count_append, (List.filter_append_perm p names).count_eq]
  exact List.count_eq_one_of_mem nodup mem

theorem inventory_conclude {files : FileSystem} {entries candidates : List Text}
    (lawful : files.Lawful) (listed : files.list path = .ok entries)
    (found : Listing.classFiles files path = .ok candidates)
    (decodes : Decoding.inOrder files path candidates = .ok decoded)
    (reported : errors log = (Decoding.failures decoded).map skipping) :
    Inventory files path entries candidates (conclude path decoded).1 log := by
  obtain ⟨names, each⟩ := Decoding.inOrder_eq_ok_iff.1 decodes
  have increasing := Listing.pairwise_classFiles lawful found
  have nodup : candidates.Nodup := increasing.imp ne_of_lt
  have records := map_records_conclude (f := ClassRecord.fileName) (fun _ _ _ _ => rfl) path decoded
  rw [Decoding.map_fileName_records each, names] at records
  have failures := Decoding.map_fileName_failures each
  rw [names] at failures
  have className : ∀ record ∈ (conclude path decoded).1.records,
      record.className ++ Listing.suffix = record.fileName := by
    refine forall_mem_records_conclude (fun _ _ _ _ => rfl) fun record mem => ?_
    have candidate : record.fileName ∈ candidates := by
      have mem := List.mem_map_of_mem (f := ClassRecord.fileName) mem
      rw [Decoding.map_fileName_records each, names] at mem
      exact (List.mem_filter.1 mem).1
    rw [Decoding.className_of_mem_records mem]
    exact Listing.displayName_append_suffix
      ((Listing.mem_classFiles_iff listed found).1 candidate).2.1
  refine
    { mem_candidates := fun name => Listing.mem_classFiles_iff listed found
      increasing, records, failures, className
      once := fun name mem => ?_
      content := ?_
      reason := fun failure mem => Decoding.ofFile_of_mem_failures each mem
      errors := reported
      numbered := ?_
      nodup_className := ?_
      tallies := ?_ }
  · rw [records]
    exact (congrArg _ (congrArg _ failures)).trans (count_filter_add_count_filter nodup mem _)
  · exact forall_mem_records_conclude (fun _ _ _ _ => rfl)
      fun record mem => Decoding.ofFile_of_mem_records each mem
  · refine ⟨decoded, names, each, ?_⟩
    rw [Collected.ofDecoded_eq, map_records_conclude (fun _ _ _ _ => rfl), map_unlinked_records]
    rfl
  · have distinct : ((conclude path decoded).1.records.toList.map ClassRecord.fileName).Nodup := by
      rw [records]
      exact nodup.filter _
    have longer : (conclude path decoded).1.records.toList.map ClassRecord.fileName =
        ((conclude path decoded).1.records.toList.map ClassRecord.className).map
          (· ++ Listing.suffix) := by
      rw [List.map_map]
      exact List.map_congr_left fun record mem =>
        (className record (Array.mem_toList_iff.1 mem)).symm
    exact (longer ▸ distinct).of_map
  · rw [← names, List.length_map]
    exact tallies_conclude path decoded

/-- The candidates of a directory are its regular files with the names of class files. A run that
comes to its end makes a record of each one that can be decoded and a failure of each other one, in
their order, and does so in whatever order the entries of the directory are listed. -/
theorem inventory_of_run (lawful : env.files.Lawful) (h : run env config = .ok (analysis, log))
    (ok : analysis.ok) :
    ∃ entries candidates,
      Path.resolve env.currentDirectory env.homes
        (Settings.ofValue env.currentDirectory config).value.inputPath = .ok analysis.basePath ∧
      env.files.list analysis.basePath = .ok entries ∧
      Inventory env.files analysis.basePath entries candidates analysis log ∧
      ∀ order : List Text, order.Perm entries →
        run { env with files := { env.files with list := fun _ => .ok order } } config =
          .ok (analysis, log) := by
  obtain ⟨path, candidates, decoded, resolved, found, decodes, rfl, reported⟩ :=
    exists_concluded_of_run h ok
  obtain ⟨entries, listed, filtered⟩ := Listing.classFiles_eq_ok_iff.1 found
  refine ⟨entries, candidates, resolved, listed,
    inventory_conclude lawful listed found decodes reported, fun order perm => ?_⟩
  rw [← h]
  refine run_eq_of_files resolved rfl ?_ fun names _ => Decoding.inOrder_congr fun _ _ => rfl
  rw [found]
  refine Listing.classFiles_eq_ok_iff.2 ⟨order, rfl, ?_⟩
  rw [Listing.sorted_eq_of_perm perm]
  exact filtered

theorem ofBytes_mutualClass : ∃ summary, Outcome.ofBytes (mutualClass 2) = .decoded summary := by
  have good : ClassFile.ofBytes (mutualClass 2) =
      .ok ⟨"A", [("A" : Text), ("B" : Text)], [], [], []⟩ := by
    cbv
  rw [Outcome.ofBytes, ClassSummary.ofBytes, good]
  exact ⟨_, rfl⟩

def mixedEntries : List (Text × FileNode) :=
  [("F.class", .file []), ("A.class", .file (mutualClass 2)), ("C$1.class", .file (mutualClass 2)),
    ("E.class", .directory), ("B.class", .file [])]

/-- A directory with entries of all kinds, of which one may not be opened. -/
def mixedDirectory : Environment :=
  (FileTree.ofEntries mixedEntries).rooted { opening := [("F.class", ⟨13, "Permission denied"⟩)] }

def mixedDecoded : List (Text × Outcome) :=
  [("A.class", .ofBytes (mutualClass 2)), ("B.class", .ofBytes []),
    ("F.class", .failed "[Errno 13] Permission denied: '/F.class'")]

theorem failures_mixedDecoded :
    Decoding.failures mixedDecoded =
      [⟨"B.class", "Unexpected end of stream at byte 0: expected 8 bytes, got 0."⟩,
        ⟨"F.class", "[Errno 13] Permission denied: '/F.class'"⟩] := by
  obtain ⟨summary, good⟩ := ofBytes_mutualClass
  have bad : Outcome.ofBytes [] =
      .failed "Unexpected end of stream at byte 0: expected 8 bytes, got 0." := by
    cbv
  simp [mixedDecoded, Decoding.failures, good, bad]

theorem classFiles_mixedDirectory :
    Listing.classFiles mixedDirectory.files "/" = .ok (mixedDecoded.map Prod.fst) := by
  have perm := @FileTree.perm_namesAt_ofEntries mixedEntries (by decide +kernel)
  have ordered : Listing.sorted (mixedEntries.map fun entry => FileName.canonical entry.1) =
      [("A.class" : Text), ("B.class" : Text), ("C$1.class" : Text), ("E.class" : Text),
        ("F.class" : Text)] := by
    cbv
  have candidates : Listing.isCandidate mixedDirectory.files "/" "A.class" = true ∧
      Listing.isCandidate mixedDirectory.files "/" "B.class" = true ∧
      Listing.isCandidate mixedDirectory.files "/" "F.class" = true := by
    cbv
  have others : Listing.isCandidate mixedDirectory.files "/" "C$1.class" = false ∧
      Listing.isCandidate mixedDirectory.files "/" "E.class" = false := by
    cbv
  rw [mixedDirectory, FileTree.classFiles_rooted perm _ rfl, ordered, ← mixedDirectory]
  simp only [List.filter, candidates, others, mixedDecoded, List.map]

theorem inOrder_mixedDirectory :
    Decoding.inOrder mixedDirectory.files "/" (mixedDecoded.map Prod.fst) = .ok mixedDecoded := by
  have first : mixedDirectory.files.read "/A.class" = .ok (mutualClass 2) := by cbv
  have second : mixedDirectory.files.read "/B.class" = .ok [] := by cbv
  have third : Outcome.ofFile mixedDirectory.files "/" "F.class" =
      .ok (.failed "[Errno 13] Permission denied: '/F.class'") := by
    cbv
  refine Decoding.inOrder_eq_ok_iff.2 ⟨rfl, ?_⟩
  simp only [mixedDecoded, List.forall_mem_cons]
  exact ⟨Outcome.ofFile_of_read first, Outcome.ofFile_of_read second, third, by simp⟩

theorem inventory_of_run_mixedDirectory :
    mixedDirectory.files.Lawful ∧ ∃ analysis log, run mixedDirectory .null = .ok (analysis, log) ∧
      analysis.ok ∧
      analysis.failures.map Failure.fileName = [("B.class" : Text), ("F.class" : Text)] ∧
      errors log =
        [⟨.error, "Skipping B.class: Unexpected end of stream at byte 0: expected 8 bytes, got 0."⟩,
          ⟨.error, "Skipping F.class: [Errno 13] Permission denied: '/F.class'"⟩] ∧
      ∃ entries candidates, mixedDirectory.files.list analysis.basePath = .ok entries ∧
        Inventory mixedDirectory.files analysis.basePath entries candidates analysis log := by
  have lawful : mixedDirectory.files.Lawful := by
    dsimp only [mixedDirectory, FileTree.rooted]
    exact FileTree.lawful_fileSystem ..
  obtain ⟨log, h⟩ := run_rooted classFiles_mixedDirectory inOrder_mixedDirectory
  obtain ⟨entries, candidates, -, listed, inventory, -⟩ := inventory_of_run lawful h rfl
  have failures : (conclude "/" mixedDecoded).1.failures = _ := failures_mixedDecoded
  have reported := inventory.errors
  rw [failures] at reported
  exact ⟨lawful, _, log, h, rfl, congrArg (List.map Failure.fileName) failures, reported, entries,
    candidates, listed, inventory⟩

end Analysis

end ClassOrder
