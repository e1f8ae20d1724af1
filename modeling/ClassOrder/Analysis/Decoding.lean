import ClassOrder.Analysis.Listing
import ClassOrder.Analysis.WorkerPool
import ClassOrder.Graph.Record

/-!
# Decoding the files of a directory

Each file is either decoded or fails for a reason. A path that names no file at all is no failure of
a file but ends the decoding.
-/

namespace ClassOrder

/-- What became of a file. -/
inductive Outcome where
  | decoded (summary : ClassSummary)
  | failed (reason : Text)
  deriving DecidableEq, Repr

/-- A file that could not be decoded. -/
structure Failure where
  fileName : Text
  reason : Text
  deriving DecidableEq, Repr

namespace Outcome

/-- The outcome for a file with this content. -/
def ofBytes (bytes : List UInt8) : Outcome :=
  match ClassSummary.ofBytes bytes with
  | .ok summary => decoded summary
  | .error malformed => failed malformed.message

/-- The outcome for a file of a directory. -/
def ofFile (files : FileSystem) (directory name : Text) : Except PathFault Outcome :=
  match files.read (Path.join directory name) with
  | .ok bytes => .ok (ofBytes bytes)
  | .error (.system error path) => .ok (failed (FileError.system error path).message)
  | .error (.badPath fault) => .error fault

/-- What decoding a file reports. -/
def log : Outcome → List LogLine
  | decoded summary => summary.log
  | failed _ => []

end Outcome

namespace Decoding

/-- The outcomes for the files with these names, in the order of the names. With one worker, or at
most one name, no pool is used. The first path that names no file counts. -/
def outcomes (files : FileSystem) (directory : Text) (names : List Text) (workers : Nat)
    (schedule : Nat → Nat) : Except PathFault (List Outcome) :=
  if workers ≤ 1 ∨ names.length ≤ 1 then names.mapM (Outcome.ofFile files directory)
  else (WorkerPool.map workers schedule (Outcome.ofFile files directory) names).mapM id

/-- Each name with its outcome. -/
def decodeAll (files : FileSystem) (directory : Text) (names : List Text) (workers : Nat)
    (schedule : Nat → Nat) : Except PathFault (List (Text × Outcome)) :=
  (outcomes files directory names workers schedule).map names.zip

/-- The records of the decoded files, in order. -/
def records (decoded : List (Text × Outcome)) : List ClassRecord :=
  decoded.filterMap fun
    | (fileName, .decoded summary) => some
      { fileName
        className := Listing.displayName fileName
        classPath := summary.classPath
        references := summary.references }
    | (_, .failed _) => none

/-- The files that could not be decoded, in order. -/
def failures (decoded : List (Text × Outcome)) : List Failure :=
  decoded.filterMap fun
    | (_, .decoded _) => none
    | (fileName, .failed reason) => some ⟨fileName, reason⟩

end Decoding

end ClassOrder
