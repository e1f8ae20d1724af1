import ClassOrder.Analysis.Decoding
import ClassOrder.Graph.Groups
import ClassOrder.Graph.Links
import ClassOrder.Report
import ClassOrder.Settings.Basic

/-!
# Analysis of a directory

A run reads its settings, lists and decodes the class files of the input directory, links their
records and groups them. It ends early if the directory cannot be listed, or if a file cannot be
decoded and such files are not to be left out.
-/

namespace ClassOrder

/-- The result of a run. -/
structure Analysis where
  /-- What ended the run early, if anything did. -/
  error : Option Text
  basePath : Text
  records : Array ClassRecord := #[]
  groups : List Group := []
  failures : List Failure := []
  summary : Entries := []

namespace Analysis

/-- Whether the run came to its end. -/
def ok (analysis : Analysis) : Bool := analysis.error.isNone

/-- The positions of the cyclic groups. -/
def cyclicGroups (analysis : Analysis) : List Nat :=
  analysis.groups.zipIdx.filterMap fun (group, i) => if group.isCyclic then some i else none

/-- The result of a run that ended early. -/
def failed (error basePath : Text) (failures : List Failure) (extra : Entries) : Analysis :=
  { error := some error, basePath, failures, summary := extra }

/-- The counts of a run that came to its end. -/
def counts (records : Array ClassRecord) (groups : List Group) (failures : List Failure) :
    Entries :=
  [("classes", .int records.size), ("groups", .int groups.length),
    ("cyclic_groups", .int (Groups.cyclicCount groups)), ("skipped", .int failures.length)]

/-- The result of a run that came to its end. -/
def succeeded (basePath : Text) (records : Array ClassRecord) (groups : List Group)
    (failures : List Failure) (extra : Entries) : Analysis :=
  { error := none
    basePath, records, groups, failures
    summary := (counts records groups failures).update extra }

/-! ## The run -/

/-- A result with the log lines that led to it. -/
abbrev Logged (α : Type) := α × List LogLine

/-- The result of a run that ended with an error in the log. -/
def stop (error basePath : Text) (failures : List Failure) : Logged Analysis :=
  (failed error basePath failures [], [⟨.error, error⟩])

def missingDirectory (basePath : Text) : Text :=
  "Input directory does not exist: " ++ basePath

def listingFailure (basePath : Text) (error : FileError) : Text :=
  "Failed to list directory " ++ basePath ++ ": " ++ error.message

def decodingFailure (failure : Failure) : Text :=
  "Failed to decode " ++ failure.fileName ++ ": " ++ failure.reason

def skipping (failure : Failure) : LogLine :=
  ⟨.error, "Skipping " ++ failure.fileName ++ ": " ++ failure.reason⟩

def finished (records : Array ClassRecord) (groups : List Group) : LogLine :=
  ⟨.info, "Analysis finished: " ++ Text.ofNat records.size ++ " class(es), " ++
    Text.ofNat groups.length ++ " group(s)."⟩

/-- Links and groups the records of decoded files. -/
def conclude (basePath : Text) (decoded : List (Text × Outcome)) : Logged Analysis :=
  let records := (Decoding.records decoded).toArray
  let failures := Decoding.failures decoded
  let linked := Links.connect records
  let groups := Groups.ofLinked linked
  let grouped := Groups.markAll linked groups
  (succeeded basePath grouped groups failures [("files", .int decoded.length)],
    failures.map skipping ++ Links.log records ++ Groups.log groups ++
      [finished grouped groups])

/-- Decodes the files of a directory and concludes, unless a failure ends the run. -/
def ofFiles (env : Environment) (settings : Settings) (basePath : Text) (names : List Text) :
    Except PathFault (Logged Analysis) := do
  let decoded ← Decoding.decodeAll env.files basePath names settings.decodeWorkers.val env.schedule
  let decodingLog := decoded.flatMap fun (_, outcome) => outcome.log
  let (analysis, log) := match settings.skipMalformed, Decoding.failures decoded with
    | false, failure :: _ => stop (decodingFailure failure) basePath [failure]
    | _, _ => conclude basePath decoded
  return (analysis, decodingLog ++ log)

/-- Lists a directory and goes on with its files. -/
def ofDirectory (env : Environment) (settings : Settings) (basePath : Text) :
    Except PathFault (Logged Analysis) :=
  if env.files.isDirectory basePath then
    match Listing.classFiles env.files basePath with
    | .ok names => do
      let (analysis, log) ← ofFiles env settings basePath names
      return (analysis, Listing.log basePath names ++ log)
    | .error (.badPath fault) => .error fault
    | .error error => .ok (stop (listingFailure basePath error) basePath [])
  else .ok (stop (missingDirectory basePath) basePath [])

/-- A run with settings. -/
def ofSettings (env : Environment) (settings : Settings) : Except PathFault (Logged Analysis) := do
  let basePath ← Path.resolve env.currentDirectory env.homes settings.inputPath
  ofDirectory env settings basePath

def configurationWarning (correction : Correction) : LogLine :=
  ⟨.warning, "Configuration Warning: " ++ correction.message⟩

/-- A run with a configuration, which is read leniently. -/
def run (env : Environment) (config : Value) : Except PathFault (Logged Analysis) := do
  let reading := Settings.ofValue env.currentDirectory config
  let (analysis, log) ← ofSettings env reading.value
  return (analysis, [⟨.info, "Analysis started."⟩] ++ Settings.readingLog reading.corrections ++
    reading.corrections.map configurationWarning ++ log)

/-- The report of a run. -/
def report (analysis : Analysis) : Except RecordError (List Text) :=
  Report.lines analysis.records analysis.groups

/-! ## File by file

What a run makes of decoded files when it takes them up one after another. -/

/-- Records with their numbers, failures and what is reported of them, as they come. -/
structure Collected where
  records : List (ClassRecord × Nat)
  failures : List Failure
  log : List LogLine

namespace Collected

/-- One more file. A record is numbered by how many records there are before it. -/
def add (state : Collected) : Text × Outcome → Collected
  | (fileName, .decoded summary) =>
    { state with
      records := state.records ++
        [({ fileName
            className := Listing.displayName fileName
            classPath := summary.classPath
            references := summary.references }, state.records.length)] }
  | (fileName, .failed reason) =>
    { state with
      failures := state.failures ++ [⟨fileName, reason⟩]
      log := state.log ++ [skipping ⟨fileName, reason⟩] }

def ofDecoded (decoded : List (Text × Outcome)) : Collected := decoded.foldl add ⟨[], [], []⟩

/-- Takes decoded files up one after another. If none may be left out, the first failure ends it and
what was collected is lost. -/
def collect (skipMalformed : Bool) (state : Collected) :
    List (Text × Outcome) → Except Failure Collected
  | [] => .ok state
  | pair :: decoded =>
    match skipMalformed, pair with
    | false, (fileName, .failed reason) => .error ⟨fileName, reason⟩
    | _, pair => collect skipMalformed (state.add pair) decoded

end Collected

end Analysis

end ClassOrder
