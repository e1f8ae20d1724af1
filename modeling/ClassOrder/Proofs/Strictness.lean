import ClassOrder.Proofs.Candidates

/-!
# Runs that end at the first failure

A run that may not leave files out gives what the same run gives that may, if no file fails
(`map_fst_run_strict`). Otherwise it gives an error about the first file that fails, in the order of
the listing, and nothing else. It comes to this by a loop over the decoded files that stops there
(`Collected.collect_false`).
-/

namespace ClassOrder

namespace Analysis

variable {env : Environment} {settings others : Settings} {path : Text}
  {decoded : List (Text × Outcome)} {analysis : Analysis} {log : List LogLine}

/-! ## A loop that may stop -/

namespace Collected

theorem collect_true (state : Collected) (decoded : List (Text × Outcome)) :
    collect true state decoded = .ok (decoded.foldl add state) := by
  induction decoded generalizing state with
  | nil => rfl
  | cons pair decoded ih => exact ih (state.add pair)

theorem collect_false (state : Collected) (decoded : List (Text × Outcome)) :
    collect false state decoded =
      (Decoding.failures decoded).head?.elim (.ok (decoded.foldl add state)) .error := by
  induction decoded generalizing state with
  | nil => rfl
  | cons pair decoded ih =>
    obtain ⟨fileName, summary | reason⟩ := pair
    · exact ih (state.add (fileName, .decoded summary))
    · rfl

end Collected

/-- A run ends as the loop does: with all that was collected, or with the failure that ended it. -/
theorem verdict_eq (skipMalformed : Bool) (path : Text) (decoded : List (Text × Outcome)) :
    verdict skipMalformed path decoded =
      match Collected.collect skipMalformed ⟨[], [], []⟩ decoded with
      | .ok _ => conclude path decoded
      | .error failure => stop (decodingFailure failure) path [failure] := by
  cases skipMalformed with
  | true => rw [Collected.collect_true, verdict_of_tolerated (.inl rfl)]
  | false =>
    rw [Collected.collect_false]
    cases failing : Decoding.failures decoded with
    | nil => exact verdict_of_tolerated (.inr failing)
    | cons failure more => exact verdict_of_failures failing

/-! ## Both runs -/

/-- What is left of a result if none of its failures may be left out. -/
def refuse (analysis : Analysis) : Analysis :=
  match analysis.failures with
  | [] => analysis
  | failure :: _ => failed (decodingFailure failure) analysis.basePath [failure] []

theorem refuse_of_nil (h : analysis.failures = []) : analysis.refuse = analysis := by
  rw [refuse, h]

theorem refuse_of_cons {failure : Failure} {more : List Failure}
    (h : analysis.failures = failure :: more) :
    analysis.refuse = failed (decodingFailure failure) analysis.basePath [failure] [] := by
  rw [refuse, h]

theorem fst_verdict_false (path : Text) (decoded : List (Text × Outcome)) :
    (verdict false path decoded).1 = (verdict true path decoded).1.refuse := by
  have all : (conclude path decoded).1.failures = Decoding.failures decoded := rfl
  rw [verdict_eq, verdict_eq, Collected.collect_true, Collected.collect_false]
  cases failing : Decoding.failures decoded with
  | nil => exact (refuse_of_nil (all.trans failing)).symm
  | cons failure more => exact (refuse_of_cons (all.trans failing)).symm

theorem map_fst_ofDirectory_strict (skips : settings.skipMalformed = true)
    (ends : others.skipMalformed = false) (env : Environment) (path : Text) :
    (ofDirectory env others path).map Prod.fst =
      (ofDirectory env settings path).map fun result => result.1.refuse := by
  by_cases isDirectory : env.files.isDirectory path
  · cases listed : Listing.classFiles env.files path with
    | error error =>
      rw [ofDirectory_of_unlisted isDirectory listed, ofDirectory_of_unlisted isDirectory listed]
      cases error <;> rfl
    | ok names =>
      rw [ofDirectory_of_listed isDirectory listed, ofDirectory_of_listed isDirectory listed, skips,
        ends]
      cases Decoding.inOrder env.files path names with
      | error fault => rfl
      | ok decoded => exact congrArg Except.ok (fst_verdict_false path decoded)
  · rw [ofDirectory_of_missing isDirectory, ofDirectory_of_missing isDirectory]
    rfl

theorem map_fst_ofSettings_strict (input : others.inputPath = settings.inputPath)
    (skips : settings.skipMalformed = true) (ends : others.skipMalformed = false)
    (env : Environment) (schedule : Nat → Nat) :
    (ofSettings { env with schedule } others).map Prod.fst =
      (ofSettings env settings).map fun result => result.1.refuse := by
  have same : ofSettings { env with schedule } others = ofSettings env others :=
    ofSettings_congr rfl rfl rfl rfl rfl
  rw [same, ofSettings, ofSettings, input]
  cases Path.resolve env.currentDirectory env.homes settings.inputPath with
  | error fault => rfl
  | ok path => exact map_fst_ofDirectory_strict skips ends env path

section Configurations

variable {lenient strict : Value}

/-- Two configurations for one directory, of which only the first one lets files be left out. -/
structure Tightens (cwd : Text) (lenient strict : Value) : Prop where
  input : (Settings.ofValue cwd strict).value.inputPath =
    (Settings.ofValue cwd lenient).value.inputPath
  skips : (Settings.ofValue cwd lenient).value.skipMalformed = true
  ends : (Settings.ofValue cwd strict).value.skipMalformed = false

theorem map_fst_run_strict (tightens : Tightens env.currentDirectory lenient strict)
    (schedule : Nat → Nat) :
    (run { env with schedule } strict).map Prod.fst =
      (run env lenient).map fun result => result.1.refuse := by
  have ended : (run env lenient).map (fun result => result.1.refuse) =
      ((run env lenient).map Prod.fst).map refuse := by
    cases run env lenient <;> rfl
  rw [ended, map_fst_run, map_fst_run,
    map_fst_ofSettings_strict tightens.input tightens.skips tightens.ends]
  cases ofSettings env (Settings.ofValue env.currentDirectory lenient).value <;> rfl

theorem run_strict_eq_error_iff (tightens : Tightens env.currentDirectory lenient strict)
    (schedule : Nat → Nat) {fault : PathFault} :
    run { env with schedule } strict = .error fault ↔ run env lenient = .error fault := by
  rw [← map_eq_error, map_fst_run_strict tightens, map_eq_error]

theorem exists_run_strict (tightens : Tightens env.currentDirectory lenient strict)
    (schedule : Nat → Nat) (h : run env lenient = .ok (analysis, log)) :
    ∃ log', run { env with schedule } strict = .ok (analysis.refuse, log') := by
  have both := map_fst_run_strict tightens schedule
  rw [h] at both
  obtain ⟨⟨ended, log'⟩, run_eq, same⟩ := map_eq_ok.1 both
  have same : ended = analysis.refuse := same
  exact ⟨log', same ▸ run_eq⟩

/-- Giving the flag for both values makes such configurations of any given one. -/
theorem tightens_set (cwd : Text) (config : Entries) :
    Tightens cwd (.dict (config.set Settings.skipMalformedKey (.bool true)))
      (.dict (config.set Settings.skipMalformedKey (.bool false))) where
  input := by
    have path : Settings.inputPathKey ≠ Settings.skipMalformedKey := by decide
    simp only [Settings.ofValue, Settings.value_ofEntries, Settings.field_set_of_ne path]
  skips := by
    simp only [Settings.ofValue, Settings.value_ofEntries, Settings.field, Entries.find?_set_self]
    rfl
  ends := by
    simp only [Settings.ofValue, Settings.value_ofEntries, Settings.field, Entries.find?_set_self]
    rfl

end Configurations

/-! ## The run that leaves files out -/

theorem basePath_of_ends (ended : Ends env settings path (.ok (analysis, log))) :
    analysis.basePath = path := by
  cases ended <;> rfl

/-- A directory that is missing or cannot be listed gives an error and no failures. -/
theorem failures_of_ends_of_unlisted (ended : Ends env settings path (.ok (analysis, log)))
    (unlisted : ¬ env.files.isDirectory path ∨ ∃ error place,
      Listing.classFiles env.files path = .error (.system error place)) :
    analysis.failures = [] ∧ analysis.ok = false := by
  have nothing : ∀ {names}, env.files.isDirectory path = true →
      Listing.classFiles env.files path ≠ .ok names := by
    intro names isDirectory listed
    rcases unlisted with missing | ⟨error, place, refused⟩
    · exact missing isDirectory
    · rw [listed] at refused
      cases refused
  cases ended with
  | noDirectory => exact ⟨rfl, rfl⟩
  | noListing => exact ⟨rfl, rfl⟩
  | refused _ isDirectory listed => exact absurd listed (nothing isDirectory)
  | concluded isDirectory listed => exact absurd listed (nothing isDirectory)

/-- Where files are left out, there are failures only if all files were worked on. -/
theorem exists_decoded_of_ends (skips : settings.skipMalformed = true)
    (ended : Ends env settings path (.ok (analysis, log))) (failing : analysis.failures ≠ []) :
    ∃ names decoded, Listing.classFiles env.files path = .ok names ∧
      Decoding.inOrder env.files path names = .ok decoded ∧
      Decoding.failures decoded = analysis.failures := by
  cases ended with
  | noDirectory => exact absurd rfl failing
  | noListing => exact absurd rfl failing
  | refused _ _ _ _ strict => exact absurd (skips.symm.trans strict) nofun
  | concluded _ listed decodes => exact ⟨_, _, listed, decodes, rfl⟩

/-! ## The first failure -/

/-- An error about a file, and nothing else. -/
structure Refused (files : FileSystem) (failure : Failure) (analysis : Analysis) : Prop where
  error : analysis.error =
    some ("Failed to decode " ++ failure.fileName ++ ": " ++ failure.reason)
  failures : analysis.failures = [failure]
  records : analysis.records = #[]
  groups : analysis.groups = []
  summary : analysis.summary = []
  /-- The loop over the decoded files stops at the first one of the listing that fails. -/
  first : ∃ names decoded, Listing.classFiles files analysis.basePath = .ok names ∧
    decoded.map Prod.fst = names ∧
    (∀ pair ∈ decoded, Outcome.ofFile files analysis.basePath pair.1 = .ok pair.2) ∧
    names.find? (!Decoding.decodes files analysis.basePath ·) = some failure.fileName ∧
    Collected.collect false ⟨[], [], []⟩ decoded = .error failure

theorem refused_of_concluded {files : FileSystem} {names : List Text} {failure : Failure}
    {more : List Failure} (listed : Listing.classFiles files path = .ok names)
    (decodes : Decoding.inOrder files path names = .ok decoded)
    (failing : Decoding.failures decoded = failure :: more) :
    Refused files failure (failed (decodingFailure failure) path [failure] []) where
  error := rfl
  failures := rfl
  records := rfl
  groups := rfl
  summary := rfl
  first := by
    obtain ⟨rfl, each⟩ := Decoding.inOrder_eq_ok_iff.1 decodes
    refine ⟨_, decoded, listed, rfl, each, ?_, ?_⟩
    · have order := Decoding.map_fileName_failures each
      rw [failing, List.map_cons] at order
      rw [← List.head?_filter]
      exact congrArg List.head? order.symm
    · rw [Collected.collect_false, failing]
      rfl

/-- A run that may not leave files out fails if the one that may does. If the directory is missing or
cannot be listed, or if nothing fails, both give the same. Otherwise it gives an error about the
first failure of the other one and nothing else. -/
theorem run_strict_of_run (env : Environment) (schedule : Nat → Nat) {lenient strict : Value}
    (tightens : Tightens env.currentDirectory lenient strict) :
    (∀ fault, run { env with schedule } strict = .error fault ↔ run env lenient = .error fault) ∧
    ∀ analysis log, run env lenient = .ok (analysis, log) →
      ∃ ended log', run { env with schedule } strict = .ok (ended, log') ∧
        ((¬ env.files.isDirectory analysis.basePath ∨ ∃ error place,
            Listing.classFiles env.files analysis.basePath = .error (.system error place)) →
          ended = analysis ∧ ended.ok = false) ∧
        (analysis.failures = [] → ended = analysis) ∧
        ∀ failure more, analysis.failures = failure :: more →
          ended.basePath = analysis.basePath ∧ Refused env.files failure ended := by
  refine ⟨fun fault => run_strict_eq_error_iff tightens schedule, fun analysis log h => ?_⟩
  obtain ⟨log', strict⟩ := exists_run_strict tightens schedule h
  obtain ⟨_, _, -, ends, -⟩ := exists_ends_of_run h
  rw [← basePath_of_ends ends] at ends
  refine ⟨_, log', strict, fun unlisted => ?_, refuse_of_nil, fun failure more failing => ?_⟩
  · obtain ⟨none, failed⟩ := failures_of_ends_of_unlisted ends unlisted
    rw [refuse_of_nil none]
    exact ⟨rfl, failed⟩
  · obtain ⟨names, decoded, listed, decodes, all⟩ :=
      exists_decoded_of_ends tightens.skips ends (failing ▸ List.cons_ne_nil _ _)
    rw [refuse_of_cons failing]
    exact ⟨rfl, refused_of_concluded listed decodes (all.trans failing)⟩

/-- On a directory with two bad files, the first of them is reported. -/
theorem run_strict_of_run_mixedDirectory :
    ∃ lenient strict, Tightens mixedDirectory.currentDirectory (.dict lenient) (.dict strict) ∧
      ∃ analysis log ended log' failure more,
        run mixedDirectory (.dict lenient) = .ok (analysis, log) ∧
        run mixedDirectory (.dict strict) = .ok (ended, log') ∧
        analysis.failures = failure :: more ∧ failure.fileName = "B.class" ∧ more ≠ [] ∧
        Refused mixedDirectory.files failure ended := by
  have tightens := tightens_set mixedDirectory.currentDirectory []
  have isDirectory : mixedDirectory.files.isDirectory "/" = true := by
    simp only [mixedDirectory, FileTree.rooted, FileTree.fileSystem, FileTree.find_root]
  obtain ⟨log, h⟩ := run_of_decoded rfl isDirectory classFiles_mixedDirectory inOrder_mixedDirectory
    tightens.skips
  obtain ⟨-, judged⟩ := run_strict_of_run mixedDirectory mixedDirectory.schedule tightens
  obtain ⟨ended, log', strict, -, -, refused⟩ := judged _ _ h
  exact ⟨_, _, tightens, _, log, ended, log', _, _, h, strict, failures_mixedDecoded, rfl, by simp,
    (refused _ _ failures_mixedDecoded).2⟩

end Analysis

end ClassOrder
