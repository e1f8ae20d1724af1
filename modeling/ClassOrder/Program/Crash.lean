import ClassOrder.Program.Basic

/-!
# Crashes

The last words of a program that is ended by a failure nobody expected: a line in the log, and a
banner with the failure on the error stream.
-/

namespace ClassOrder

/-- The kinds of failure that can end the program. -/
inductive CrashKind where
  | value
  | key
  | system
  | usage
  | classFile
  deriving DecidableEq, Repr

namespace CrashKind

/-- The name of the kind in the banner. -/
def name : CrashKind → String
  | value => "ValueError"
  | key => "KeyError"
  | system => "OSError"
  | usage => "classdeps.domain.errors.UsageError"
  | classFile => "classdeps.domain.errors.MalformedClassFileError"

end CrashKind

/-- A failure: its kind and what it has to say. -/
structure Crash where
  kind : CrashKind
  details : List Text
  deriving DecidableEq, Repr

namespace Crash

/-- Details in round brackets, each as a literal. -/
def tuple (details : List Text) : Text :=
  "(" ++ Text.joinWith ", " (details.map Text.quoted) ++ ")"

/-- The paths that a system failure is about, from the details behind its reason. The detail
between the two paths is of no meaning here. -/
def paths? : List Text → Option Text
  | [] => some []
  | [path] | [path, _] => some (": " ++ Text.quoted path)
  | [path, _, target] => some (": " ++ Text.quoted path ++ " -> " ++ Text.quoted target)
  | _ => none

/-- The description of a system failure with a number and a reason, like that of other errors of the
system. -/
def systemDescription? : List Text → Option Text
  | number :: reason :: rest =>
    (paths? rest).map fun paths => "[Errno " ++ number ++ "] " ++ reason ++ paths
  | _ => none

/-- The description of a failure. A missing key is shown as a literal. -/
def description (crash : Crash) : Text :=
  match crash.kind, crash.details with
  | _, [] => []
  | .key, [detail] => Text.quoted detail
  | _, [detail] => detail
  | .system, details => (systemDescription? details).getD (tuple details)
  | _, details => tuple details

/-- The failure on a line of its own. -/
def trace (crash : Crash) : Text :=
  let description := crash.description
  if description.isEmpty then crash.kind.name ++ "\n"
  else crash.kind.name ++ ": " ++ description ++ "\n"

def rule : Text := (List.replicate 80 0x3D : Text) ++ "\n"

/-- What is printed to the error stream. -/
def banner (crash : Crash) : Text :=
  "\n" ++ rule ++ "CRITICAL ERROR (CLASSDEPS)\n" ++ rule ++ crash.trace ++ "\n"

def logLine (crash : Crash) : LogLine :=
  ⟨.critical, "FATAL EXCEPTION DETECTED: " ++ crash.description⟩

/-- What a crash leaves behind when the console log is set up in some way. -/
def outcome (console : Console) (crash : Crash) : ProgramOutcome :=
  { exitCode := 1
    errors := Text.escapeSurrogates crash.banner
    log := console.emit [] crash.logLine }

/-- The crash that an interruption of a run leads to. -/
def ofInterruption (interruption : Interruption) : Crash := ⟨.value, [interruption.message]⟩

end Crash

end ClassOrder
