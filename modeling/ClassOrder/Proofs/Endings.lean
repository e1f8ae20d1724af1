import ClassOrder.Analysis.Basic
import ClassOrder.Proofs.Decoding
import ClassOrder.Proofs.Settings

/-!
# How analyses end

The analysis of a directory ends in one of six ways (`Ends`, `ends_ofDirectory`), which depend on
the files alone: neither the number of workers nor their schedule makes a difference
(`decodeAll_of_any_schedule`).
-/

namespace ClassOrder

namespace Analysis

variable {env other : Environment} {settings : Settings} {path : Text} {names : List Text}
  {decoded : List (Text × Outcome)}

/-! ## One file after another -/

/-- What decoding files reports. -/
def decodingLog (decoded : List (Text × Outcome)) : List LogLine :=
  decoded.flatMap fun (_, outcome) => outcome.log

/-- What comes of decoded files: the first failure ends the run, unless it is to be left out. -/
def verdict (skipMalformed : Bool) (path : Text) (decoded : List (Text × Outcome)) :
    Logged Analysis :=
  match skipMalformed, Decoding.failures decoded with
  | false, failure :: _ => stop (decodingFailure failure) path [failure]
  | _, _ => conclude path decoded

theorem ofFiles_eq (env : Environment) (settings : Settings) (path : Text) (names : List Text) :
    ofFiles env settings path names = (Decoding.inOrder env.files path names).map fun decoded =>
      let result := verdict settings.skipMalformed path decoded
      (result.1, decodingLog decoded ++ result.2) := by
  rw [ofFiles, Decoding.decodeAll_eq_inOrder]
  cases Decoding.inOrder env.files path names with
  | error fault => rfl
  | ok decoded => rfl

theorem verdict_of_tolerated {skipMalformed : Bool}
    (h : skipMalformed = true ∨ Decoding.failures decoded = []) :
    verdict skipMalformed path decoded = conclude path decoded := by
  unfold verdict
  split
  · simp_all
  · rfl

theorem verdict_of_failures {failure : Failure} {more : List Failure}
    (h : Decoding.failures decoded = failure :: more) :
    verdict false path decoded = stop (decodingFailure failure) path [failure] := by
  simp only [verdict, h]

/-- What comes of a directory that cannot be listed. -/
def unlisted (path : Text) : FileError → Except PathFault (Logged Analysis)
  | .system error place => .ok (stop (listingFailure path (.system error place)) path [])
  | .badPath fault => .error fault

theorem ofDirectory_of_missing (missing : ¬ env.files.isDirectory path) :
    ofDirectory env settings path = .ok (stop (missingDirectory path) path []) :=
  if_neg missing

theorem ofDirectory_of_unlisted {error : FileError} (isDirectory : env.files.isDirectory path)
    (h : Listing.classFiles env.files path = .error error) :
    ofDirectory env settings path = unlisted path error := by
  rw [ofDirectory, if_pos isDirectory, h]
  cases error <;> rfl

theorem ofDirectory_of_listed (isDirectory : env.files.isDirectory path)
    (listed : Listing.classFiles env.files path = .ok names) :
    ofDirectory env settings path = (Decoding.inOrder env.files path names).map fun decoded =>
      let result := verdict settings.skipMalformed path decoded
      (result.1, Listing.log path names ++ (decodingLog decoded ++ result.2)) := by
  rw [ofDirectory, if_pos isDirectory, listed]
  change (ofFiles env settings path names >>= _) = _
  rw [ofFiles_eq]
  cases Decoding.inOrder env.files path names with
  | error fault => rfl
  | ok decoded => rfl

/-! ## Endings -/

/-- The ways in which the analysis of a directory can end. -/
inductive Ends (env : Environment) (settings : Settings) (path : Text) :
    Except PathFault (Logged Analysis) → Prop
  | noDirectory (missing : ¬ env.files.isDirectory path) :
      Ends env settings path (.ok (stop (missingDirectory path) path []))
  | noListing {error : SystemError} {place : Text} (isDirectory : env.files.isDirectory path)
      (unlisted : Listing.classFiles env.files path = .error (.system error place)) :
      Ends env settings path (.ok (stop (listingFailure path (.system error place)) path []))
  | badListing {fault : PathFault} (isDirectory : env.files.isDirectory path)
      (unlisted : Listing.classFiles env.files path = .error (.badPath fault)) :
      Ends env settings path (.error fault)
  | badName {names : List Text} {fault : PathFault} (isDirectory : env.files.isDirectory path)
      (listed : Listing.classFiles env.files path = .ok names)
      (undecoded : Decoding.inOrder env.files path names = .error fault) :
      Ends env settings path (.error fault)
  | refused {names : List Text} {decoded : List (Text × Outcome)} {failure : Failure}
      {more : List Failure} (log : List LogLine) (isDirectory : env.files.isDirectory path)
      (listed : Listing.classFiles env.files path = .ok names)
      (decodes : Decoding.inOrder env.files path names = .ok decoded)
      (strict : settings.skipMalformed = false)
      (failing : Decoding.failures decoded = failure :: more) :
      Ends env settings path (.ok ((stop (decodingFailure failure) path [failure]).1, log))
  | concluded {names : List Text} {decoded : List (Text × Outcome)}
      (isDirectory : env.files.isDirectory path)
      (listed : Listing.classFiles env.files path = .ok names)
      (decodes : Decoding.inOrder env.files path names = .ok decoded)
      (tolerated : settings.skipMalformed = true ∨ Decoding.failures decoded = []) :
      Ends env settings path (.ok ((conclude path decoded).1,
        Listing.log path names ++ (decodingLog decoded ++ (conclude path decoded).2)))

theorem ends_ofDirectory (env : Environment) (settings : Settings) (path : Text) :
    Ends env settings path (ofDirectory env settings path) := by
  by_cases isDirectory : env.files.isDirectory path
  · cases listed : Listing.classFiles env.files path with
    | error error =>
      rw [ofDirectory_of_unlisted isDirectory listed]
      cases error with
      | system error place => exact .noListing isDirectory listed
      | badPath fault => exact .badListing isDirectory listed
    | ok names =>
      rw [ofDirectory_of_listed isDirectory listed]
      cases decodes : Decoding.inOrder env.files path names with
      | error fault => exact .badName isDirectory listed decodes
      | ok decoded =>
        by_cases tolerated : settings.skipMalformed = true ∨ Decoding.failures decoded = []
        · simp only [Except.map, verdict_of_tolerated tolerated]
          exact .concluded isDirectory listed decodes tolerated
        · have strict : settings.skipMalformed = false := by simp_all
          cases failing : Decoding.failures decoded with
          | nil => simp [failing] at tolerated
          | cons failure more =>
            simp only [Except.map, strict, verdict_of_failures failing]
            exact .refused _ isDirectory listed decodes strict failing
  · rw [ofDirectory_of_missing isDirectory]
    exact .noDirectory isDirectory

/-! ## Workers make no difference -/

theorem ofDirectory_congr {others : Settings} (files : env.files = other.files)
    (policy : settings.skipMalformed = others.skipMalformed) (path : Text) :
    ofDirectory env settings path = ofDirectory other others path := by
  simp only [ofDirectory, ofFiles_eq, files, policy]

/-- An analysis depends on the files, on the directory to look into and on what to do about files
that cannot be decoded. -/
theorem ofSettings_congr {others : Settings} (cwd : env.currentDirectory = other.currentDirectory)
    (home : env.homes = other.homes) (files : env.files = other.files)
    (input : settings.inputPath = others.inputPath)
    (policy : settings.skipMalformed = others.skipMalformed) :
    ofSettings env settings = ofSettings other others := by
  simp only [ofSettings, cwd, home, input, ofDirectory_congr files policy]

/-- What a run reports before it looks at files. -/
def openingLog (corrections : List Correction) : List LogLine :=
  [⟨.info, "Analysis started."⟩] ++ Settings.readingLog corrections ++
    corrections.map configurationWarning

theorem run_of_resolved {config : Value}
    (resolved : Path.resolve env.currentDirectory env.homes
      (Settings.ofValue env.currentDirectory config).value.inputPath = .ok path) :
    run env config =
      (ofDirectory env (Settings.ofValue env.currentDirectory config).value path).map fun result =>
        (result.1, openingLog (Settings.ofValue env.currentDirectory config).corrections ++
          result.2) := by
  simp only [run, ofSettings, resolved]
  change (ofDirectory _ _ path >>= _) = _
  cases ofDirectory env (Settings.ofValue env.currentDirectory config).value path with
  | error fault => rfl
  | ok result => rfl

/-- A run that gives a result has come to the end of a directory. -/
theorem exists_ends_of_run {config : Value} {analysis : Analysis} {log : List LogLine}
    (h : run env config = .ok (analysis, log)) :
    ∃ path log', Path.resolve env.currentDirectory env.homes
        (Settings.ofValue env.currentDirectory config).value.inputPath = .ok path ∧
      Ends env (Settings.ofValue env.currentDirectory config).value path (.ok (analysis, log')) ∧
      log = openingLog (Settings.ofValue env.currentDirectory config).corrections ++ log' := by
  obtain ⟨_, settled, -⟩ := bind_eq_ok.1 h
  obtain ⟨path, resolved, -⟩ := bind_eq_ok.1 settled
  rw [run_of_resolved resolved] at h
  obtain ⟨⟨_, log'⟩, directory, eq⟩ := map_eq_ok.1 h
  cases eq
  exact ⟨path, log', resolved, directory ▸ ends_ofDirectory env _ path, rfl⟩

/-- A run does not tell file systems apart that have the same class files in its directory. -/
theorem run_eq_of_files {after : FileSystem} {config : Value}
    (resolved : Path.resolve env.currentDirectory env.homes
      (Settings.ofValue env.currentDirectory config).value.inputPath = .ok path)
    (isDirectory : after.isDirectory path = env.files.isDirectory path)
    (listed : Listing.classFiles after path = Listing.classFiles env.files path)
    (decodes : ∀ names, Listing.classFiles env.files path = .ok names →
      Decoding.inOrder after path names = Decoding.inOrder env.files path names) :
    run { env with files := after } config = run env config := by
  have grown : run { env with files := after } config = _ := run_of_resolved resolved
  rw [grown, run_of_resolved resolved]
  congr 1
  simp only [ofDirectory, ofFiles_eq, isDirectory, listed]
  cases listing : Listing.classFiles env.files path with
  | error error => cases error <;> rfl
  | ok names => simp only [decodes names listing]

theorem map_fst_run (env : Environment) (config : Value) :
    (run env config).map Prod.fst =
      (ofSettings env (Settings.ofValue env.currentDirectory config).value).map Prod.fst := by
  rw [run]
  cases ofSettings env (Settings.ofValue env.currentDirectory config).value with
  | error fault => rfl
  | ok result => rfl

/-- The value of the number of workers in a configuration does not change the result. -/
theorem map_fst_run_set_workers (cwd : env.currentDirectory = other.currentDirectory)
    (home : env.homes = other.homes) (files : env.files = other.files)
    (config : Entries) (count otherCount : Value) :
    (run env (.dict (config.set Settings.decodeWorkersKey count))).map Prod.fst =
      (run other (.dict (config.set Settings.decodeWorkersKey otherCount))).map Prod.fst := by
  have path : Settings.inputPathKey ≠ Settings.decodeWorkersKey := by decide
  have flag : Settings.skipMalformedKey ≠ Settings.decodeWorkersKey := by decide
  rw [map_fst_run, map_fst_run]
  congr 1
  apply ofSettings_congr cwd home files
  · simp only [Settings.ofValue, Settings.value_ofEntries, Settings.field_set_of_ne path, cwd]
  · simp only [Settings.ofValue, Settings.value_ofEntries, Settings.field_set_of_ne flag]

/-- However the workers of a pool go about decoding some files, it comes to its end with what one
worker gives: each name with its outcome, or the fault of the first name that has one. So an
analysis has one result for all numbers of workers and all schedules. -/
theorem decodeAll_of_any_schedule (files : FileSystem) (directory : Text) (names : List Text)
    (workers : Nat) :
    (∀ pool, WorkerPool.Moves workers (Outcome.ofFile files directory) (.ofTasks names) pool →
      (∀ next, WorkerPool.Move workers (Outcome.ofFile files directory) pool next →
        next.remaining < pool.remaining) ∧
      (pool.remaining ≠ 0 → 0 < workers →
        ∃ next, WorkerPool.Move workers (Outcome.ofFile files directory) pool next) ∧
      (pool.remaining = 0 → ∀ schedule,
        ((pool.answers names.length).mapM id).map names.zip =
          Decoding.decodeAll files directory names 1 schedule)) ∧
    ∀ schedule,
      (∀ alone, Decoding.decodeAll files directory names workers schedule =
        Decoding.decodeAll files directory names 1 alone) ∧
      (∀ decoded, Decoding.decodeAll files directory names workers schedule = .ok decoded ↔
        decoded.map Prod.fst = names ∧
          ∀ pair ∈ decoded, Outcome.ofFile files directory pair.1 = .ok pair.2) ∧
      (∀ fault, Decoding.decodeAll files directory names workers schedule = .error fault ↔
        ∃ before name after, names = before ++ name :: after ∧
          (∀ earlier ∈ before, ∃ outcome, Outcome.ofFile files directory earlier = .ok outcome) ∧
          Outcome.ofFile files directory name = .error fault) ∧
      ∀ (env : Environment) (config : Entries) (count otherCount : Value),
        (run env (.dict (config.set Settings.decodeWorkersKey count))).map Prod.fst =
          (run { env with schedule } (.dict (config.set Settings.decodeWorkersKey otherCount))).map
            Prod.fst := by
  refine ⟨fun pool moves => ⟨fun next move => ?_, ?_, fun done schedule => ?_⟩, fun schedule => ?_⟩
  · have := WorkerPool.remaining_of_move move
    omega
  · exact fun busy staffed => WorkerPool.exists_move staffed busy
  · rw [WorkerPool.answers_of_moves moves done, Decoding.decodeAll_eq_inOrder, List.mapM_map]
    exact Decoding.map_zip_mapM _ names
  · simp only [Decoding.decodeAll_eq_inOrder]
    refine ⟨fun _ => trivial, fun decoded => Decoding.inOrder_eq_ok_iff,
      fun fault => Decoding.inOrder_eq_error_iff, fun env config count otherCount => ?_⟩
    apply map_fst_run_set_workers
    · rfl
    · rfl
    · rfl

end Analysis

end ClassOrder
