import ClassOrder.Proofs.Candidates

/-!
# One more entry in a directory

A new entry that cannot be decoded gives one more failure, at its place among the others, and
changes nothing else but counts; one that is no candidate changes nothing at all (`run_of_adds`).
This takes that the other entries stay what they were (`Adds`), which holds of every tree, unless
the new entry is what a link among them did not find (`adds_insert`).
-/

namespace ClassOrder

/-- One file system has one entry more in a directory than another one, and the two show the same
class files among the other entries. -/
structure FileSystem.Adds (before after : FileSystem) (directory name : Text) : Prop where
  isDirectory : after.isDirectory directory = before.isDirectory directory
  unlisted : ∀ error, before.list directory = .error error → after.list directory = .error error
  listed : ∀ names, before.list directory = .ok names →
    name ∉ names ∧ ∃ more, after.list directory = .ok more ∧ more.Perm (name :: names)
  isCandidate : ∀ names, before.list directory = .ok names → ∀ other ∈ names,
    Listing.isCandidate after directory other = Listing.isCandidate before directory other
  read : ∀ names, before.list directory = .ok names → ∀ other ∈ names,
    Listing.isCandidate before directory other →
      after.read (Path.join directory other) = before.read (Path.join directory other)

variable {before after : FileSystem} {directory name : Text}

/-! ## Trees that grow -/

/-- A new node in a directory of a tree is an added entry, if no other entry becomes a class file
by it. -/
theorem FileTree.adds_insert {tree : FileTree} {cwd path : Text} {place : List FileName}
    {name : FileName} (node : FileNode) (faults : Faults)
    (found : tree.find cwd path = .ok .directory) (reached : tree.resolve cwd path = .ok place)
    (new : place ++ [name] ∉ tree.nodes)
    (others : ∀ other ∈ tree.namesAt place,
      Listing.isCandidate ((tree.insert (place ++ [name]) node).fileSystem cwd faults) path other →
        Listing.isCandidate (tree.fileSystem cwd faults) path other) :
    (tree.fileSystem cwd faults).Adds
      ((tree.insert (place ++ [name]) node).fileSystem cwd faults) path name.toText where
  isDirectory := by
    simp only [fileSystem, found, find_insert new found]
  unlisted := by
    intro error listed
    have fault := (list_fileSystem_eq_error_iff found reached).1 listed
    exact (list_fileSystem_eq_error_iff (find_insert new found) (resolve_insert new reached)).2
      fault
  listed := by
    intro names listed
    obtain ⟨listable, rfl⟩ := (list_fileSystem_eq_ok_iff found reached).1 listed
    refine ⟨toText_notMem_namesAt new, _, ?_, namesAt_insert new node⟩
    exact (list_fileSystem_eq_ok_iff (find_insert new found) (resolve_insert new reached)).2
      ⟨listable, rfl⟩
  isCandidate := by
    intro names listed other mem
    obtain ⟨-, rfl⟩ := (list_fileSystem_eq_ok_iff found reached).1 listed
    exact Bool.eq_iff_iff.2 ⟨others other mem, isCandidate_insert new⟩
  read := by
    intro names listed other mem candidate
    obtain ⟨content, file⟩ := isFile_iff.1 (Bool.and_eq_true_iff.1 candidate).2
    dsimp only [fileSystem]
    rw [read, read, file, find_insert new file]

/-! ## Class files -/

namespace Listing

theorem unlisted_of_adds {error : FileError} (adds : before.Adds after directory name)
    (h : classFiles before directory = .error error) : classFiles after directory = .error error :=
  classFiles_eq_error_iff.2 (adds.unlisted error (classFiles_eq_error_iff.1 h))

/-- The class files of the other entries stay in their order. -/
theorem classFiles_of_adds {names : List Text} (adds : before.Adds after directory name)
    (found : classFiles before directory = .ok names) :
    ∃ earlier later, names = earlier ++ later ∧
      classFiles after directory =
        .ok (earlier ++ ([name].filter (isCandidate after directory) ++ later)) ∧
      (∀ other ∈ earlier, other < name) ∧ ∀ other ∈ later, name < other := by
  obtain ⟨entries, listed, rfl⟩ := classFiles_eq_ok_iff.1 found
  obtain ⟨new, more, listed', perm⟩ := adds.listed entries listed
  obtain ⟨front, back, split', split, below, above⟩ := exists_split_sorted new perm
  have same : ∀ part, part ⊆ entries →
      part.filter (isCandidate after directory) = part.filter (isCandidate before directory) :=
    fun part inside => List.filter_congr fun other mem =>
      adds.isCandidate entries listed other (inside mem)
  have inside : front ++ back ⊆ entries := split ▸ (perm_sorted entries).subset
  obtain ⟨frontInside, backInside⟩ := List.append_subset.1 inside
  refine ⟨_, _, by rw [split, List.filter_append], ?_,
    fun other mem => below other (List.mem_filter.1 mem).1,
    fun other mem => above other (List.mem_filter.1 mem).1⟩
  refine classFiles_eq_ok_iff.2 ⟨more, listed', ?_⟩
  have cons : name :: back = [name] ++ back := rfl
  rw [split', cons, List.filter_append, List.filter_append, same front frontInside,
    same back backInside]

end Listing

/-! ## Decoded files -/

namespace Decoding

variable {earlier later : List (Text × Outcome)} {reason : Text}

theorem inOrder_of_adds {names : List Text} (adds : before.Adds after directory name)
    (found : Listing.classFiles before directory = .ok names) {part : List Text}
    (inside : part ⊆ names) : inOrder after directory part = inOrder before directory part := by
  obtain ⟨entries, listed, rfl⟩ := Listing.classFiles_eq_ok_iff.1 found
  refine inOrder_congr fun other mem => ?_
  obtain ⟨entry, candidate⟩ := List.mem_filter.1 (inside mem)
  have known := (Listing.perm_sorted entries).mem_iff.1 entry
  rw [Outcome.ofFile, Outcome.ofFile, adds.read entries listed other known candidate]

theorem inOrder_append (files : FileSystem) (directory : Text) (front back : List Text) :
    inOrder files directory (front ++ back) = do
      return (← inOrder files directory front) ++ (← inOrder files directory back) := by
  rw [inOrder, List.mapM_append]
  rfl

theorem inOrder_cons (files : FileSystem) {outcome : Outcome}
    (h : Outcome.ofFile files directory name = .ok outcome) (names : List Text) :
    inOrder files directory (name :: names) =
      (inOrder files directory names).map ((name, outcome) :: ·) := by
  rw [inOrder, List.mapM_cons, h]
  change (inOrder files directory names >>= fun rest => pure ((name, outcome) :: rest)) = _
  cases inOrder files directory names with
  | error fault => rfl
  | ok decoded => rfl

/-- With one more name that has an outcome, decoding comes to the same fault, or has one more
pair. -/
theorem inOrder_insert {front back : List Text} {outcome : Outcome}
    (adds : before.Adds after directory name)
    (found : Listing.classFiles before directory = .ok (front ++ back))
    (h : Outcome.ofFile after directory name = .ok outcome) :
    (∃ fault, inOrder before directory (front ++ back) = .error fault ∧
      inOrder after directory (front ++ name :: back) = .error fault) ∨
    ∃ earlier later, earlier.map Prod.fst = front ∧ later.map Prod.fst = back ∧
      inOrder before directory (front ++ back) = .ok (earlier ++ later) ∧
      inOrder after directory (front ++ name :: back) =
        .ok (earlier ++ (name, outcome) :: later) := by
  rw [inOrder_append, inOrder_append, inOrder_cons after h,
    inOrder_of_adds adds found (List.subset_append_left front back),
    inOrder_of_adds adds found (List.subset_append_right front back)]
  cases first : inOrder before directory front with
  | error fault => exact .inl ⟨fault, rfl, rfl⟩
  | ok earlier =>
    cases second : inOrder before directory back with
    | error fault => exact .inl ⟨fault, rfl, rfl⟩
    | ok later =>
      exact .inr ⟨earlier, later, (inOrder_eq_ok_iff.1 first).1, (inOrder_eq_ok_iff.1 second).1,
        rfl, rfl⟩

theorem records_insert_failed :
    records (earlier ++ (name, .failed reason) :: later) = records (earlier ++ later) := by
  simp [records]

theorem failures_append (earlier later : List (Text × Outcome)) :
    failures (earlier ++ later) = failures earlier ++ failures later :=
  List.filterMap_append

theorem failures_insert_failed :
    failures (earlier ++ (name, .failed reason) :: later) =
      failures earlier ++ ⟨name, reason⟩ :: failures later := by
  simp [failures]

theorem mem_map_fst_of_mem_failures {decoded : List (Text × Outcome)} {failure : Failure}
    (mem : failure ∈ failures decoded) : failure.fileName ∈ decoded.map Prod.fst := by
  obtain ⟨⟨fileName, outcome⟩, inside, made⟩ := List.mem_filterMap.1 mem
  cases outcome with
  | decoded summary => simp at made
  | failed reason =>
    cases made
    exact List.mem_map_of_mem inside

end Decoding

/-! ## Analyses -/

namespace Analysis

variable {env : Environment} {settings : Settings} {config : Value} {path reason : Text}

/-- An analysis differs from another one by one more failure, in its place, and by its count. -/
structure Gains (before after : Analysis) (failure : Failure) : Prop where
  error : after.error = before.error
  basePath : after.basePath = before.basePath
  records : after.records = before.records
  groups : after.groups = before.groups
  report : after.report = before.report
  failures : ∃ earlier later, before.failures = earlier ++ later ∧
    after.failures = earlier ++ failure :: later ∧
    (∀ other ∈ earlier, other.fileName < failure.fileName) ∧
    ∀ other ∈ later, failure.fileName < other.fileName
  summary : ∃ files skipped : Nat, before.summary.find? "files" = some (.int files) ∧
    before.summary.find? "skipped" = some (.int skipped) ∧
    after.summary = (before.summary.set "files" (.int (files + 1 : Nat))).set "skipped"
      (.int (skipped + 1 : Nat))

theorem gains_conclude {earlier later : List (Text × Outcome)}
    (below : ∀ other ∈ earlier.map Prod.fst, other < name)
    (above : ∀ other ∈ later.map Prod.fst, name < other) :
    Gains (conclude path (earlier ++ later)).1
      (conclude path (earlier ++ (name, .failed reason) :: later)).1 ⟨name, reason⟩ := by
  have records : (conclude path (earlier ++ (name, .failed reason) :: later)).1.records =
      (conclude path (earlier ++ later)).1.records := by
    simp only [conclude, succeeded, Decoding.records_insert_failed]
  have groups : (conclude path (earlier ++ (name, .failed reason) :: later)).1.groups =
      (conclude path (earlier ++ later)).1.groups := by
    simp only [conclude, succeeded, Decoding.records_insert_failed]
  refine
    { error := by simp only [conclude, succeeded]
      basePath := by simp only [conclude, succeeded]
      records, groups
      report := by rw [report, report, records, groups]
      failures := ⟨Decoding.failures earlier, Decoding.failures later, ?_, ?_, ?_, ?_⟩
      summary := ⟨_, _, (tallies_conclude ..).files, (tallies_conclude ..).skipped, ?_⟩ }
  · exact Decoding.failures_append ..
  · exact Decoding.failures_insert_failed
  · exact fun other mem => below _ (Decoding.mem_map_fst_of_mem_failures mem)
  · exact fun other mem => above _ (Decoding.mem_map_fst_of_mem_failures mem)
  · have skipped : (Decoding.failures (earlier ++ (name, .failed reason) :: later)).length =
        (Decoding.failures (earlier ++ later)).length + 1 := by
      rw [Decoding.failures_insert_failed, Decoding.failures_append, List.length_append,
        List.length_append, List.length_cons]
      rfl
    have files : (earlier ++ (name, Outcome.failed reason) :: later).length =
        (earlier ++ later).length + 1 := by
      rw [List.length_append, List.length_append, List.length_cons]
      rfl
    simp only [conclude, succeeded, counts, Decoding.records_insert_failed, skipped, files]
    rfl

/-- With one more candidate that cannot be decoded, an analysis ends early as before, or comes to
its end with one more failure. -/
theorem ofDirectory_of_adds (adds : env.files.Adds after path name)
    (candidate : Listing.isCandidate after path name = true)
    (failing : Outcome.ofFile after path name = .ok (.failed reason))
    (lenient : settings.skipMalformed = true) :
    (ofDirectory { env with files := after } settings path = ofDirectory env settings path ∧
      ∀ analysis log, ofDirectory env settings path = .ok (analysis, log) → ¬ analysis.ok) ∨
    ∃ analysis log analysis' log', ofDirectory env settings path = .ok (analysis, log) ∧
      ofDirectory { env with files := after } settings path = .ok (analysis', log') ∧
      analysis.ok ∧ Gains analysis analysis' ⟨name, reason⟩ := by
  by_cases isDirectory : env.files.isDirectory path
  · have isDirectory' : after.isDirectory path := adds.isDirectory ▸ isDirectory
    cases listed : Listing.classFiles env.files path with
    | error error =>
      have listed' := Listing.unlisted_of_adds adds listed
      rw [ofDirectory_of_unlisted isDirectory listed, ofDirectory_of_unlisted isDirectory' listed']
      refine .inl ⟨rfl, fun analysis log ended => ?_⟩
      cases error with
      | badPath fault => cases ended
      | system error place =>
        cases ended
        exact not_ok_stop _ _ _
    | ok names =>
      obtain ⟨front, back, rfl, listed', below, above⟩ := Listing.classFiles_of_adds adds listed
      rw [List.filter_cons_of_pos candidate, List.filter_nil, List.singleton_append] at listed'
      rw [ofDirectory_of_listed isDirectory listed, ofDirectory_of_listed isDirectory' listed']
      rcases Decoding.inOrder_insert adds listed failing with
        ⟨fault, bad, bad'⟩ | ⟨earlier, later, rfl, rfl, good, good'⟩
      · rw [bad, bad']
        exact .inl ⟨rfl, fun analysis log ended => by cases ended⟩
      · rw [good, good']
        simp only [Except.map, verdict_of_tolerated (.inl lenient)]
        exact .inr ⟨_, _, _, _, rfl, rfl, rfl, gains_conclude below above⟩
  · have missing' : ¬ after.isDirectory path := adds.isDirectory ▸ isDirectory
    rw [ofDirectory_of_missing isDirectory, ofDirectory_of_missing missing']
    refine .inl ⟨rfl, fun analysis log ended => ?_⟩
    cases ended
    exact not_ok_stop _ _ _

/-- An entry that is no candidate changes nothing. A candidate that cannot be decoded, where such
files are left out, leaves an analysis that ended early as it was, and any other one with one more
failure. -/
theorem run_of_adds
    (resolved : Path.resolve env.currentDirectory env.homes
      (Settings.ofValue env.currentDirectory config).value.inputPath = .ok path)
    (adds : env.files.Adds after path name) :
    (Listing.isCandidate after path name = false →
      run { env with files := after } config = run env config) ∧
    (Listing.isCandidate after path name = true →
      (Settings.ofValue env.currentDirectory config).value.skipMalformed = true →
      ∀ reason, Outcome.ofFile after path name = .ok (.failed reason) →
        (∀ fault, run env config = .error fault →
          run { env with files := after } config = .error fault) ∧
        ∀ analysis log, run env config = .ok (analysis, log) →
          ∃ analysis' log', run { env with files := after } config = .ok (analysis', log') ∧
            (analysis.ok → Gains analysis analysis' ⟨name, reason⟩) ∧
            (¬ analysis.ok → analysis' = analysis)) := by
  refine ⟨fun other => ?_, fun candidate lenient reason failing => ?_⟩
  · cases listed : Listing.classFiles env.files path with
    | error error =>
      have listed' := Listing.unlisted_of_adds adds listed
      exact run_eq_of_files resolved adds.isDirectory (listed'.trans listed.symm)
        fun names found => by rw [listed] at found; cases found
    | ok names =>
      obtain ⟨front, back, split, listed', -⟩ := Listing.classFiles_of_adds adds listed
      rw [List.filter_cons_of_neg (by simp [other]), List.filter_nil, List.nil_append,
        ← split] at listed'
      refine run_eq_of_files resolved adds.isDirectory (listed'.trans listed.symm) ?_
      exact fun found listed => Decoding.inOrder_of_adds adds listed (List.Subset.refl found)
  · have grown : run { env with files := after } config = _ := run_of_resolved resolved
    rw [grown, run_of_resolved resolved]
    rcases ofDirectory_of_adds adds candidate failing lenient with
      ⟨same, early⟩ | ⟨analysis, log, analysis', log', ended, ended', ok, gains⟩
    · rw [same]
      refine ⟨fun fault h => h,
        fun analysis log h => ⟨analysis, log, h, fun ok => ?_, fun _ => rfl⟩⟩
      obtain ⟨⟨analysis, log⟩, ended, eq⟩ := map_eq_ok.1 h
      cases eq
      exact absurd ok (early _ _ ended)
    · rw [ended, ended']
      refine ⟨fun fault h => (by cases h), fun analysis log h => ?_⟩
      cases h
      exact ⟨_, _, rfl, fun _ => gains, fun early => absurd ok early⟩

/-- A directory with one class. -/
def singleTree : FileTree := .ofEntries [("B.class", .file (mutualClass 4))]

def singleDecoded : List (Text × Outcome) := [("B.class", .ofBytes (mutualClass 4))]

theorem perm_namesAt_singleTree : (singleTree.namesAt []).Perm [("B.class" : Text)] :=
  FileTree.perm_namesAt_singleton (by cbv) _

theorem run_singleTree :
    ∃ log, run (singleTree.rooted {}) .null = .ok ((conclude "/" singleDecoded).1, log) := by
  have ordered : Listing.sorted [("B.class" : Text)] = [("B.class" : Text)] := by cbv
  have candidate : Listing.isCandidate (singleTree.rooted {}).files "/" "B.class" = true := by cbv
  have read : (singleTree.rooted {}).files.read "/B.class" = .ok (mutualClass 4) := by cbv
  have listed := FileTree.classFiles_rooted perm_namesAt_singleTree {} rfl
  rw [ordered, List.filter_cons_of_pos candidate, List.filter_nil] at listed
  exact run_rooted listed (Decoding.inOrder_singleton read)

/-- A new entry in the root of the tree with one class. -/
theorem adds_singleTree {name : Text} (node : FileNode)
    (new : [FileName.ofText name] ∉ singleTree.nodes) :
    (singleTree.rooted {}).files.Adds
      ((singleTree.insert [FileName.ofText name] node).rooted {}).files "/"
      (FileName.canonical name) := by
  have candidate : Listing.isCandidate (singleTree.rooted {}).files "/" "B.class" = true := by cbv
  refine FileTree.adds_insert node {} (FileTree.find_root _) (FileTree.resolve_root _) new ?_
  intro other mem _
  rw [perm_namesAt_singleTree.mem_iff, List.mem_singleton] at mem
  exact mem ▸ candidate

theorem run_of_adds_singleTree :
    (∃ reason analysis log analysis' log', run (singleTree.rooted {}) .null = .ok (analysis, log) ∧
      run ((singleTree.insert [FileName.ofText "A.class"] (.file [])).rooted {}) .null =
        .ok (analysis', log') ∧ analysis.ok ∧ Gains analysis analysis' ⟨"A.class", reason⟩) ∧
    run ((singleTree.insert [FileName.ofText "A.bin"] (.file (mutualClass 2))).rooted {}) .null =
      run (singleTree.rooted {}) .null := by
  have new : [FileName.ofText "A.class"] ∉ singleTree.nodes ∧
      [FileName.ofText "A.bin"] ∉ singleTree.nodes := by
    rw [singleTree, FileTree.mem_nodes_ofEntries, FileTree.mem_nodes_ofEntries]
    decide +kernel
  have text : FileName.canonical "A.class" = "A.class" ∧ FileName.canonical "A.bin" = "A.bin" := by
    cbv
  have resolved : Path.resolve (singleTree.rooted {}).currentDirectory
      (singleTree.rooted {}).homes
      (Settings.ofValue (singleTree.rooted {}).currentDirectory .null).value.inputPath =
        .ok "/" := rfl
  obtain ⟨log, h⟩ := run_singleTree
  refine ⟨?_, ?_⟩
  · have adds := adds_singleTree (.file []) new.1
    rw [text.1] at adds
    have failing : ∃ reason, Outcome.ofFile
        ((singleTree.insert [FileName.ofText "A.class"] (.file [])).rooted {}).files "/" "A.class" =
          .ok (.failed reason) :=
      ⟨_, by cbv⟩
    obtain ⟨reason, failing⟩ := failing
    obtain ⟨-, gains⟩ := (run_of_adds resolved adds).2 (by cbv) rfl reason failing
    obtain ⟨analysis', log', h', gains, -⟩ := gains _ _ h
    exact ⟨reason, _, log, analysis', log', h, h', rfl, gains rfl⟩
  · have adds := adds_singleTree (.file (mutualClass 2)) new.2
    rw [text.2] at adds
    exact (run_of_adds resolved adds).1 (by cbv)

/-- A directory with a link that leads to nothing. -/
def danglingTree : FileTree := .ofEntries [("A.class", .link "x.bin")]

/-- The same directory with a file where the link leads to. -/
def mendedTree : FileTree :=
  danglingTree.insert [FileName.ofText "x.bin"] (.file (mutualClass 2))

theorem perm_namesAt_danglingTree : (danglingTree.namesAt []).Perm [("A.class" : Text)] :=
  FileTree.perm_namesAt_singleton (by cbv) _

theorem run_danglingTree :
    ∃ log, run (danglingTree.rooted {}) .null = .ok ((conclude "/" []).1, log) := by
  have ordered : Listing.sorted [("A.class" : Text)] = [("A.class" : Text)] := by cbv
  have candidate : Listing.isCandidate (danglingTree.rooted {}).files "/" "A.class" = false := by
    cbv
  have listed := FileTree.classFiles_rooted perm_namesAt_danglingTree {} rfl
  rw [ordered] at listed
  simp only [List.filter, candidate] at listed
  exact run_rooted listed rfl

theorem run_mendedTree : ∃ log, run (mendedTree.rooted {}) .null =
    .ok ((conclude "/" [("A.class", .ofBytes (mutualClass 2))]).1, log) := by
  have new : [] ++ [FileName.ofText "x.bin"] ∉ danglingTree.nodes := by
    rw [danglingTree, FileTree.mem_nodes_ofEntries]
    decide +kernel
  have text : (FileName.ofText "x.bin").toText = "x.bin" := by cbv
  have added := FileTree.namesAt_insert new (.file (mutualClass 2))
  rw [text] at added
  have perm : (mendedTree.namesAt []).Perm [("x.bin" : Text), ("A.class" : Text)] :=
    added.trans (perm_namesAt_danglingTree.cons _)
  have ordered : Listing.sorted [("x.bin" : Text), ("A.class" : Text)] =
      [("A.class" : Text), ("x.bin" : Text)] := by
    cbv
  have candidates : Listing.isCandidate (mendedTree.rooted {}).files "/" "A.class" = true ∧
      Listing.isCandidate (mendedTree.rooted {}).files "/" "x.bin" = false := by
    cbv
  have read : (mendedTree.rooted {}).files.read "/A.class" = .ok (mutualClass 2) := by cbv
  have listed := FileTree.classFiles_rooted perm {} rfl
  rw [ordered] at listed
  simp only [List.filter, candidates] at listed
  exact run_rooted listed (Decoding.inOrder_singleton read)

/-- The target of a link is no candidate, but gives the link something to be decoded. -/
theorem run_mendedTree_ne :
    Listing.isCandidate (mendedTree.rooted {}).files "/" "x.bin" = false ∧
    ∃ analysis log analysis' log', run (danglingTree.rooted {}) .null = .ok (analysis, log) ∧
      run (mendedTree.rooted {}) .null = .ok (analysis', log') ∧ analysis.ok ∧ analysis'.ok ∧
      analysis.records.size = 0 ∧ analysis'.records.size = 1 := by
  have candidate : Listing.isCandidate (mendedTree.rooted {}).files "/" "x.bin" = false := by cbv
  obtain ⟨log, h⟩ := run_danglingTree
  obtain ⟨log', h'⟩ := run_mendedTree
  obtain ⟨summary, decoded⟩ := ofBytes_mutualClass
  refine ⟨candidate, _, _, _, _, h, h', rfl, rfl, rfl, ?_⟩
  rw [size_records_conclude, decoded]
  rfl

end Analysis

end ClassOrder
