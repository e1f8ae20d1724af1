import ClassOrder.Program.Basic
import ClassOrder.Proofs.Candidates
import ClassOrder.Proofs.Console

/-!
# Outcomes of the program

What the program prints and how it ends follows from its command line, its configuration and the
files alone (`runWith_obeys`). The analysis reads the settings of the program back as they are, so
both look into the same directory (`run_entries`). The one way out without an exit code is an input
path that starts with the name of a user who cannot be looked up (`resolve_eq_error_iff`).
-/

namespace ClassOrder

/-! ## The usage -/

namespace Usage

variable {columns : Nat}

theorem text_of_le (h : 30 ≤ columns) : text columns = "usage: classdeps [directory]" := by
  have fits : lead.length + (Text.joinWith " " (programName :: operands)).length ≤ columns - 2 := by
    change 28 ≤ columns - 2
    omega
  rw [text, if_pos fits]
  rfl

theorem fill_singleton (width indent column : Nat) (word : Text) :
    fill width indent [] column [word] = [[word]] := by
  simp [fill]

theorem fill_pair (width indent column : Nat) (first second : Text) :
    fill width indent [] column [first, second] =
      if width < column + first.length + 1 + second.length then [[first], [second]]
      else [[first, second]] := by
  simp [fill]

/-- On a narrow terminal the operand stands on a line of its own. -/
theorem text_of_lt (h : columns < 30) : text columns =
    "usage: classdeps\n" ++ (List.replicate (if 24 ≤ columns then 17 else 7) 0x20 : Text) ++
      "[directory]" := by
  have wide : ¬ lead.length + (Text.joinWith " " (programName :: operands)).length ≤
      columns - 2 := by
    change ¬ 28 ≤ columns - 2
    omega
  have room : 4 * (lead.length + programName.length) ≤ 3 * (columns - 2) ↔ 24 ≤ columns := by
    change 64 ≤ 3 * (columns - 2) ↔ _
    omega
  dsimp only [text]
  rw [if_neg wide]
  by_cases behind : 24 ≤ columns
  · have broken : columns - 2 <
        lead.length + programName.length + 1 + (Text.ofString "[directory]").length := by
      change columns - 2 < 28
      omega
    rw [if_pos (room.2 behind), if_pos behind, operands, fill_pair, if_pos broken]
    rfl
  · rw [if_neg (mt room.1 behind), if_neg behind, operands, fill_singleton]
    rfl

end Usage

/-! ## Names of users -/

namespace Path

/-- Why the name of a user at the start of a path cannot be looked up. -/
def userFault? : Text → Option PathFault
  | [] => none
  | c :: rest => if c = tilde then fault? (rest.takeWhile (· != slash)) else none

theorem expandHome_eq_error_iff {homes : Homes} {path : Text} {fault : PathFault} :
    expandHome homes path = .error fault ↔ userFault? path = some fault := by
  cases path with
  | nil => simp [expandHome, userFault?]
  | cons c rest =>
    by_cases user : c = tilde
    · by_cases alone : rest.takeWhile (· != slash) = []
      · have none : fault? [] = none := rfl
        simp [expandHome, userFault?, user, alone, none]
      · simp only [expandHome, userFault?, user, ne_eq, not_true_eq_false, if_false, if_true]
        rw [if_neg (by simpa using alone)]
        cases fault? (rest.takeWhile (· != slash)) <;> simp
    · simp [expandHome, userFault?, user]

theorem resolve_eq_error_iff {cwd path : Text} {homes : Homes} {fault : PathFault} :
    resolve cwd homes path = .error fault ↔ userFault? path = some fault := by
  rw [resolve, map_eq_error, expandHome_eq_error_iff]

end Path

namespace Program

variable {env : Environment} {arguments : List Text} {config : Value} {given : Entries}
  {settings : Settings} {path : Text}

/-! ## What the program is asked to do -/

/-- A command line with more than a directory on it. -/
def Refused (arguments : List Text) : Prop :=
  1 < arguments.length ∨ ∃ argument rest, arguments = argument :: rest ∧
    argument.head? = some optionMark

/-- The path of the directory to analyse: the argument, else the configured path, else the current
directory. White space around a path does not count, and nothing else does but a text. -/
def inputPath (cwd : Text) (arguments : List Text) (given : Entries) : Text :=
  match arguments.head?.elim (given.find? Settings.inputPathKey) (fun t => some (.text t)) with
  | some (.text t) => if t.strip = [] then cwd else t.strip
  | _ => cwd

theorem directory?_of_refused (refused : Refused arguments) :
    directory? arguments = .error .badInvocation := by
  match arguments with
  | [] => simp [Refused] at refused
  | [argument] =>
    have option : argument.head? = some optionMark := by simpa [Refused] using refused
    simp [directory?, option]
  | _ :: _ :: _ => rfl

theorem directory?_of_not_refused (allowed : ¬ Refused arguments) :
    directory? arguments = .ok arguments.head? := by
  match arguments with
  | [] => rfl
  | [argument] =>
    have plain : argument.head? ≠ some optionMark :=
      fun option => allowed (.inr ⟨argument, [], rfl, option⟩)
    simp [directory?, plain]
  | _ :: _ :: _ => exact absurd (.inl (by simp)) allowed

theorem value_readPath (cwd : Text) (value : Value) :
    (Settings.readPath cwd value).value = match value with
      | .text t => if t.strip = [] then cwd else t.strip
      | _ => cwd := by
  cases value with
  | text t => simp [Settings.readPath, Reading.value]
  | _ => rfl

theorem inputPath_overridden {cwd : Text} (trimmed : cwd.strip = cwd) (arguments : List Text)
    (given : Entries) :
    (Settings.ofEntries cwd (overridden given arguments.head?)).value.inputPath =
      inputPath cwd arguments given := by
  rw [Settings.value_ofEntries, inputPath]
  dsimp only
  cases arguments.head? with
  | some argument =>
    simp [overridden, Settings.field, Entries.find?_set_self, value_readPath]
  | none =>
    cases found : given.find? Settings.inputPathKey with
    | some value =>
      simp only [overridden, Settings.field, found, value_readPath]
      cases value <;> rfl
    | none =>
      simp [overridden, Settings.field, found, Settings.readPath_self trimmed, Reading.value]

theorem skipMalformed_overridden (cwd : Text) (given : Entries) (directory : Option Text) :
    (Settings.ofEntries cwd (overridden given directory)).value.skipMalformed =
      (Settings.ofEntries cwd given).value.skipMalformed := by
  cases directory with
  | none => rfl
  | some directory =>
    have other : Settings.skipMalformedKey ≠ Settings.inputPathKey := by decide
    simp only [overridden, Settings.value_ofEntries, Settings.field_set_of_ne other]

theorem runWith_of_refused (refused : Refused arguments) (config : Value) :
    runWith env arguments config =
      .ok { exitCode := 0, errors := Usage.text env.columns ++ ("\n" : Text) } := by
  have directory := directory?_of_refused refused
  simp only [runWith, directory, run, Program.settings]
  rfl

theorem runWith_of_not_refused (allowed : ¬ Refused arguments)
    (dictionary : Entries.ofValue config = .ok given) :
    runWith env arguments config = checkAndAnalyse env
      (Settings.ofEntries env.currentDirectory (overridden given arguments.head?)) := by
  have directory := directory?_of_not_refused allowed
  simp only [runWith, directory, dictionary, run, Program.settings]
  rfl

/-- The console log of a run has the threshold that its settings name. -/
theorem ofName?_logLevel (settings : Settings) :
    Severity.ofName? settings.logLevel.name = some (console settings).threshold := by
  have accepted : Console.fresh.accepts false := rfl
  rw [console, Console.threshold_configure accepted]
  simp only [ConsoleSetup.threshold, Option.bind_some, LevelName.ofText?_name]
  exact LevelName.ofName?_name settings.logLevel

/-! ## The analysis of the program -/

section Settled

variable (settled : Settings.Settled env.currentDirectory settings)
  (resolved : Path.resolve env.currentDirectory env.homes settings.inputPath = .ok path)

include settled resolved

/-- The analysis looks into the directory that the program made sure of. -/
theorem run_entries :
    Analysis.run env (.dict settings.entries) =
      (Analysis.ofDirectory env settings path).map fun result =>
        (result.1, Analysis.openingLog [] ++ result.2) := by
  have reading : Settings.ofValue env.currentDirectory (.dict settings.entries) =
      .accepted settings := Settings.ofEntries_entries settled
  have same : Path.resolve env.currentDirectory env.homes
      (Settings.ofValue env.currentDirectory (.dict settings.entries)).value.inputPath =
        .ok path := by
    rw [reading]
    exact resolved
  rw [Analysis.run_of_resolved same, reading]
  rfl

theorem analyse_of_error {analysis : Analysis} {log : List LogLine} {message : Text}
    (ended : Analysis.ofDirectory env settings path = .ok (analysis, log))
    (error : analysis.error = some message) (before : List LogLine) :
    ∃ text, analyse env settings before =
      .ok { exitCode := 1, errors := errorLine message, log := text } := by
  rw [analyse, run_entries settled resolved, ended]
  simp only [Except.map, Except.mapError, bind, Except.bind, error]
  exact ⟨_, rfl⟩

theorem analyse_of_report {analysis : Analysis} {log : List LogLine} {lines : List Text}
    (ended : Analysis.ofDirectory env settings path = .ok (analysis, log))
    (error : analysis.error = none) (report : analysis.report = .ok lines)
    (before : List LogLine) :
    ∃ text, analyse env settings before =
      .ok { exitCode := 0, printed := lines, log := text } := by
  rw [analyse, run_entries settled resolved, ended]
  simp only [Except.map, Except.mapError, bind, Except.bind, error, report]
  exact ⟨_, rfl⟩

end Settled

/-- What keeps the analysis of a directory from its end: it cannot be listed, or one of its
candidates cannot be decoded and is not to be left out. -/
def Fails (files : FileSystem) (skipMalformed : Bool) (path : Text) : Prop :=
  (∃ error, files.list path = .error error) ∨ skipMalformed = false ∧
    ∃ names, Listing.classFiles files path = .ok names ∧
      ∃ name ∈ names, Decoding.decodes files path name = false

/-- What a run of the program on a directory leaves behind. The analysis it prints is that of this
directory, and an analysis that ends early does not miss the directory. -/
structure Obeys (env : Environment) (settings : Settings) (path : Text)
    (outcome : ProgramOutcome) : Prop where
  missing : ¬ env.files.isDirectory path → outcome.exitCode = 2 ∧ outcome.output = [] ∧
    outcome.errors = errorLine (Analysis.missingDirectory path)
  failed : env.files.isDirectory path → Fails env.files settings.skipMalformed path →
    outcome.exitCode = 1 ∧ outcome.output = [] ∧
      ∃ message, outcome.errors = errorLine message ∧
        ∀ place, message ≠ Analysis.missingDirectory place
  reported : env.files.isDirectory path → ¬ Fails env.files settings.skipMalformed path →
    outcome.exitCode = 0 ∧
      ∃ analysis log lines, Analysis.ofDirectory env settings path = .ok (analysis, log) ∧
        analysis.ok ∧ analysis.report = .ok lines ∧
        outcome.output = lines.flatMap (· ++ ("\n" : Text))

theorem missingDirectory_ne {text rest : Text} (h : text.head? = some 0x46) (place : Text) :
    text ++ rest ≠ Analysis.missingDirectory place := by
  intro same
  have first : (text ++ rest).head? = some 0x49 := by
    rw [same]
    rfl
  rw [List.head?_append, h] at first
  simp at first

theorem report_conclude (path : Text) (decoded : List (Text × Outcome)) :
    ∃ lines, (Analysis.conclude path decoded).1.report = .ok lines :=
  ⟨_, Report.lines_ofLinked (Links.mirrored_connect _)⟩

/-- A candidate of a lawful file system has an outcome. -/
theorem inOrder_ne_error {files : FileSystem} {names : List Text} (lawful : files.Lawful)
    (listed : Listing.classFiles files path = .ok names) (fault : PathFault) :
    Decoding.inOrder files path names ≠ .error fault := by
  intro bad
  obtain ⟨front, name, back, rfl, -, refused⟩ := Decoding.inOrder_eq_error_iff.1 bad
  obtain ⟨entries, -, filtered⟩ := Listing.classFiles_eq_ok_iff.1 listed
  have mem : name ∈ (Listing.sorted entries).filter (Listing.isCandidate files path) := by
    rw [filtered]
    simp
  have isFile := (Bool.and_eq_true_iff.1 (List.mem_filter.1 mem).2).2
  unfold Outcome.ofFile at refused
  split at refused
  · cases refused
  · cases refused
  · next other read => exact lawful.read_ne isFile other read

theorem fails_iff {files : FileSystem} {names : List Text} {decoded : List (Text × Outcome)}
    (listed : Listing.classFiles files path = .ok names)
    (decodes : Decoding.inOrder files path names = .ok decoded) (skipMalformed : Bool) :
    Fails files skipMalformed path ↔ skipMalformed = false ∧ Decoding.failures decoded ≠ [] := by
  obtain ⟨entries, known, -⟩ := Listing.classFiles_eq_ok_iff.1 listed
  obtain ⟨names_eq, each⟩ := Decoding.inOrder_eq_ok_iff.1 decodes
  have failures := Decoding.map_fileName_failures each
  have none_iff : Decoding.failures decoded = [] ↔
      ¬ ∃ name ∈ names, Decoding.decodes files path name = false := by
    rw [← List.map_eq_nil_iff (f := Failure.fileName), failures, names_eq]
    simp
  simp [Fails, known, listed, none_iff]

theorem exists_obeys_analyse (lawful : env.files.Lawful)
    (settled : Settings.Settled env.currentDirectory settings)
    (resolved : Path.resolve env.currentDirectory env.homes settings.inputPath = .ok path)
    (isDirectory : env.files.isDirectory path) (before : List LogLine) :
    ∃ outcome, analyse env settings before = .ok outcome ∧ Obeys env settings path outcome := by
  have present : ¬ ¬ env.files.isDirectory path := not_not_intro isDirectory
  have ends := Analysis.ends_ofDirectory env settings path
  generalize ended : Analysis.ofDirectory env settings path = result at ends
  cases ends with
  | noDirectory missing => exact absurd isDirectory missing
  | @noListing error place _ unlisted =>
    obtain ⟨text, h⟩ := analyse_of_error settled resolved ended rfl before
    refine ⟨_, h, ⟨fun missing => absurd missing present, fun _ _ => ⟨rfl, rfl, _, rfl, ?_⟩,
      fun _ fine => absurd (.inl ⟨_, Listing.classFiles_eq_error_iff.1 unlisted⟩) fine⟩⟩
    exact missingDirectory_ne rfl
  | @badListing fault _ unlisted =>
    exact absurd (Listing.classFiles_eq_error_iff.1 unlisted) (lawful.list_ne isDirectory fault)
  | @badName names fault _ listed undecoded =>
    exact absurd undecoded (inOrder_ne_error lawful listed fault)
  | @refused names decoded failure more log _ listed decodes strict failing =>
    obtain ⟨text, h⟩ := analyse_of_error settled resolved ended rfl before
    have fails : Fails env.files settings.skipMalformed path :=
      (fails_iff listed decodes _).2 ⟨strict, by simp [failing]⟩
    refine ⟨_, h, ⟨fun missing => absurd missing present, fun _ _ => ⟨rfl, rfl, _, rfl, ?_⟩,
      fun _ fine => absurd fails fine⟩⟩
    exact missingDirectory_ne rfl
  | @concluded names decoded _ listed decodes tolerated =>
    obtain ⟨lines, report⟩ := report_conclude path decoded
    obtain ⟨text, h⟩ := analyse_of_report settled resolved ended rfl report before
    have fine : ¬ Fails env.files settings.skipMalformed path := by
      rw [fails_iff listed decodes]
      rcases tolerated with lenient | none
      · simp [lenient]
      · simp [none]
    exact ⟨_, h, ⟨fun missing => absurd missing present, fun _ fails => absurd fails fine,
      fun _ _ => ⟨rfl, _, _, lines, ended, rfl, report, rfl⟩⟩⟩

theorem obeys_congr {others : Settings} {outcome : ProgramOutcome}
    (policy : settings.skipMalformed = others.skipMalformed) (h : Obeys env settings path outcome) :
    Obeys env others path outcome where
  missing := h.missing
  failed := policy ▸ h.failed
  reported := by
    rw [← policy, ← Analysis.ofDirectory_congr rfl policy]
    exact h.reported

/-- The directory is made sure of before it is analysed. -/
theorem exists_obeys_checkAndAnalyse {reading : Reading Settings} (lawful : env.files.Lawful)
    (settled : Settings.Settled env.currentDirectory reading.value)
    (resolved : Path.resolve env.currentDirectory env.homes reading.value.inputPath =
      .ok path) :
    ∃ outcome, checkAndAnalyse env reading = .ok outcome ∧
      Obeys env reading.value path outcome := by
  rw [checkAndAnalyse, target, resolved]
  simp only [Except.mapError, bind, Except.bind]
  by_cases isDirectory : env.files.isDirectory path
  · rw [if_pos isDirectory]
    exact exists_obeys_analyse lawful settled resolved isDirectory _
  · rw [if_neg isDirectory]
    exact ⟨_, rfl, ⟨fun _ => ⟨rfl, rfl, rfl⟩, fun present => absurd present isDirectory,
      fun present => absurd present isDirectory⟩⟩

/-! ## Outcomes -/

theorem runWith_singleton {directory : Text} (plain : directory.head? ≠ some optionMark)
    (dictionary : Entries.ofValue config = .ok given) :
    runWith env [directory] config =
      runWith env [] (.dict (given.set Settings.inputPathKey (.text directory))) := by
  have allowed : ¬ Refused [directory] := by simpa [Refused] using plain
  have none : ¬ Refused [] := by simp [Refused]
  rw [runWith_of_not_refused allowed dictionary, runWith_of_not_refused none rfl]
  rfl

/-- A command line with more than a directory on it is answered by the usage, which takes one line
if the terminal has the columns for it and two lines otherwise. Any other command line names a
directory, or the configuration or the current directory does; what is printed is the whole report
on this directory or nothing, and the exit code tells why. A directory on the command line counts
like one in the configuration. Only a path that starts with the name of a user who cannot be looked
up leaves the run without an exit code. -/
theorem runWith_obeys (trimmed : env.currentDirectory.strip = env.currentDirectory)
    (lawful : env.files.Lawful) (dictionary : Entries.ofValue config = .ok given)
    (arguments : List Text) :
    (Refused arguments →
      ∃ usage, runWith env arguments config =
          .ok { exitCode := 0, errors := usage ++ ("\n" : Text) } ∧
        (30 ≤ env.columns → usage = "usage: classdeps [directory]") ∧
        (env.columns < 30 → usage = "usage: classdeps\n" ++
          (List.replicate (if 24 ≤ env.columns then 17 else 7) 0x20 : Text) ++
            "[directory]")) ∧
    (¬ Refused arguments →
      (∀ fault, Path.userFault? (inputPath env.currentDirectory arguments given) = some fault →
        runWith env arguments config = .error (.badPath fault)) ∧
      (Path.userFault? (inputPath env.currentDirectory arguments given) = none →
        ∃ path outcome,
          Path.resolve env.currentDirectory env.homes
            (inputPath env.currentDirectory arguments given) = .ok path ∧
          runWith env arguments config = .ok outcome ∧
          Obeys env (Settings.ofEntries env.currentDirectory given).value path outcome)) ∧
    ∀ directory : Text, directory.head? ≠ some optionMark →
      runWith env [directory] config =
        runWith env [] (.dict (given.set Settings.inputPathKey (.text directory))) := by
  refine ⟨fun refused => ⟨_, runWith_of_refused refused config, Usage.text_of_le,
    Usage.text_of_lt⟩, fun allowed => ?_, fun directory plain => runWith_singleton plain dictionary⟩
  have input := inputPath_overridden trimmed arguments given
  have settled := Settings.settled_ofEntries trimmed (overridden given arguments.head?)
  rw [runWith_of_not_refused allowed dictionary]
  refine ⟨fun fault unknown => ?_, fun known => ?_⟩
  · rw [← Path.resolve_eq_error_iff, ← input] at unknown
    rw [checkAndAnalyse, target, unknown]
    rfl
  · cases resolved : Path.resolve env.currentDirectory env.homes
        (inputPath env.currentDirectory arguments given) with
    | error fault =>
      rw [Path.resolve_eq_error_iff, known] at resolved
      cases resolved
    | ok path =>
      rw [← input] at resolved
      obtain ⟨outcome, h, obeys⟩ := exists_obeys_checkAndAnalyse lawful settled resolved
      exact ⟨path, outcome, rfl, h, obeys_congr (skipMalformed_overridden ..) obeys⟩

theorem lawful_mutualPair : Analysis.mutualPair.files.Lawful where
  nodup_list := by
    intro path names listed
    cases listed
    decide
  list_ne := by
    intro path _ fault listed
    cases listed
  read_ne := by
    intro path _ fault read
    cases read

theorem ofDirectory_mutualPair (settings : Settings) (lenient : settings.skipMalformed = true) :
    ∃ log, Analysis.ofDirectory Analysis.mutualPair settings "/" =
      .ok ((Analysis.conclude "/" Analysis.mutualDecoded).1, log) := by
  have listed : Listing.classFiles Analysis.mutualPair.files "/" =
      .ok [("A.class" : Text), ("B.class" : Text)] := by
    cbv
  have decodes : Decoding.inOrder Analysis.mutualPair.files "/"
      [("A.class" : Text), ("B.class" : Text)] = .ok Analysis.mutualDecoded := rfl
  rw [Analysis.ofDirectory_of_listed rfl listed, decodes]
  simp only [Except.map, Analysis.verdict_of_tolerated (.inl lenient)]
  exact ⟨_, rfl⟩

theorem report_mutualDecoded :
    (Analysis.conclude "/" Analysis.mutualDecoded).1.report =
      .ok [("[A, B]" : Text), ("    A -> [B]" : Text), ("    B -> [A]" : Text)] := by
  obtain ⟨groups, records⟩ := Analysis.conclude_mutualDecoded
  rw [Analysis.report, groups, records]
  decide +kernel

/-- The directory with two classes is the home of a user. -/
def mutualHome : Environment :=
  { Analysis.mutualPair with
    homes := { own := none, ofUser := fun name => if name = "root" then some "/" else none } }

theorem runWith_obeys_mutualHome :
    mutualHome.currentDirectory.strip = mutualHome.currentDirectory ∧ mutualHome.files.Lawful ∧
    ∃ outcome, runWith mutualHome [("~root" : Text)] .null = .ok outcome ∧
      outcome.exitCode = 0 ∧ outcome.output = "[A, B]\n    A -> [B]\n    B -> [A]\n" := by
  have trimmed : mutualHome.currentDirectory.strip = mutualHome.currentDirectory := by
    cbv
  have lawful : mutualHome.files.Lawful := lawful_mutualPair
  refine ⟨trimmed, lawful, ?_⟩
  have allowed : ¬ Refused [("~root" : Text)] := by
    simp [Refused]
    decide
  have dictionary : Entries.ofValue .null = .ok [] := rfl
  obtain ⟨path, outcome, resolved, h, obeys⟩ :=
    ((runWith_obeys trimmed lawful dictionary [("~root" : Text)]).2.1 allowed).2 (by cbv)
  have home : Path.resolve "/" mutualHome.homes (inputPath "/" [("~root" : Text)] []) =
      .ok "/" := by
    cbv
  obtain rfl : path = "/" := Except.ok.inj (resolved.symm.trans home)
  have fine : ¬ Fails mutualHome.files true "/" := by
    rintro (⟨error, listed⟩ | ⟨strict, -⟩)
    · cases listed
    · cases strict
  obtain ⟨code, analysis, log, lines, ended, -, report, output⟩ := obeys.reported rfl fine
  obtain ⟨log', ended'⟩ :=
    ofDirectory_mutualPair (Settings.ofEntries mutualHome.currentDirectory []).value rfl
  have same : Analysis.ofDirectory mutualHome _ "/" = _ :=
    (Analysis.ofDirectory_congr rfl rfl "/").trans ended'
  rw [same] at ended
  cases ended
  rw [report_mutualDecoded] at report
  cases report
  refine ⟨outcome, h, code, output.trans ?_⟩
  decide +kernel

/-- A null byte in the name of a user ends the run without an exit code; anywhere else in a path it
leads to no directory. -/
theorem runWith_unknownUser :
    runWith (FileTree.empty.rooted {}) [("~\x00" : Text)] .null = .error (.badPath .nullByte) ∧
    runWith (FileTree.empty.rooted {}) [("a\x00" : Text)] .null =
      .ok { exitCode := 2, errors := errorLine (Analysis.missingDirectory "/a\x00") } := by
  refine ⟨rfl, ?_⟩
  have missing : (FileTree.empty.rooted {}).files.isDirectory "/a\x00" = false := by cbv
  have resolved : Path.resolve (FileTree.empty.rooted {}).currentDirectory
      (FileTree.empty.rooted {}).homes
      (Settings.ofEntries (FileTree.empty.rooted {}).currentDirectory
        (overridden [] (some "a\x00"))).value.inputPath = .ok "/a\x00" := by
    cbv
  change checkAndAnalyse _ _ = _
  rw [checkAndAnalyse, target, resolved]
  simp only [Except.mapError, bind, Except.bind, missing]
  rfl

end Program

end ClassOrder
