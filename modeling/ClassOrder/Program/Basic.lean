import ClassOrder.Analysis.Basic
import ClassOrder.Console.Basic
import ClassOrder.Program.Usage
import ClassOrder.Settings.Pairs

/-!
# The program

The command line takes at most one argument, the directory to analyse. The program reads its
settings, sets up the console log, makes sure of the directory, analyses it and prints the report.
-/

namespace ClassOrder

/-- What a run of the program leaves behind. -/
structure ProgramOutcome where
  exitCode : Nat
  /-- The lines that are printed to the output. -/
  printed : List Text := []
  /-- What is printed to the error stream directly. -/
  errors : Text := []
  /-- What the console log writes. -/
  log : Text := []
  deriving DecidableEq, Repr

namespace ProgramOutcome

/-- What the printed lines make of the output, each of them ended. -/
def output (outcome : ProgramOutcome) : Text := outcome.printed.flatMap (· ++ "\n")

/-- Why the output does not take the lines, if it has to be encoded: the first of them with a
surrogate is at fault. -/
def fault? (outcome : ProgramOutcome) : Option EncodingFault :=
  outcome.printed.findSome? EncodingFault.strict?

end ProgramOutcome

/-- Why a command line is refused. -/
inductive UsageError where
  | badInvocation
  deriving DecidableEq, Repr

namespace UsageError

/-- A command line that is refused is answered by the usage, on a terminal of some width. -/
def message (error : UsageError) (columns : Nat := 80) : Text :=
  match error with
  | badInvocation => Usage.text columns

end UsageError

/-- What can end a run in the middle. -/
inductive Interruption where
  | badPath (fault : PathFault)
  | badRecord (error : RecordError)
  | badConfiguration (fault : PairFault)
  | unprintable (fault : EncodingFault)
  deriving DecidableEq, Repr

namespace Interruption

def message : Interruption → Text
  | badPath fault => fault.message
  | badRecord error => error.message
  | badConfiguration fault => fault.message
  | unprintable fault => fault.message

end Interruption

namespace Program

/-- The first code point of an option. -/
def optionMark : CodePoint := 0x2D

/-- The directory on a command line, if there is one. Options are refused. -/
def directory? : List Text → Except UsageError (Option Text)
  | [] => .ok none
  | [argument] =>
    if argument.head? = some optionMark then .error .badInvocation else .ok (some argument)
  | _ => .error .badInvocation

/-- A configuration in which a directory on the command line comes first. -/
def overridden (config : Entries) : Option Text → Entries
  | none => config
  | some directory => config.set Settings.inputPathKey (.text directory)

def configurationConstraint (correction : Correction) : LogLine :=
  ⟨.warning, "Configuration Constraint: " ++ correction.message⟩

/-- The console log of a run. -/
def console (settings : Settings) : Console :=
  Console.fresh.configure { level := some settings.logLevel.name } false

/-- What the console log of a run writes. -/
def logText (settings : Settings) (lines : List LogLine) : Text :=
  lines.flatMap ((console settings).emit [])

def errorLine (message : Text) : Text := Text.escapeSurrogates ("ERROR: " ++ message ++ "\n")

/-- Analyses with settings and prints. The settings go to the analysis as a configuration. -/
def analyse (env : Environment) (settings : Settings) (before : List LogLine) :
    Except Interruption ProgramOutcome := do
  let (analysis, log) ←
    (Analysis.run env (.dict settings.entries)).mapError .badPath
  let log := logText settings (before ++ log)
  match analysis.error with
  | some error => return { exitCode := 1, errors := errorLine error, log }
  | none =>
    let lines ← analysis.report.mapError .badRecord
    return { exitCode := 0, printed := lines, log }

/-- The directory that settings name. -/
def target (cwd : Text) (homes : Homes) (settings : Settings) : Except PathFault Text :=
  Path.resolve cwd homes settings.inputPath

/-- Makes sure of the directory before the analysis. -/
def checkAndAnalyse (env : Environment) (reading : Reading Settings) :
    Except Interruption ProgramOutcome := do
  let settings := reading.value
  let before := reading.corrections.map configurationConstraint
  let path ← (target env.currentDirectory env.homes settings).mapError .badPath
  if env.files.isDirectory path then analyse env settings before
  else
    return { exitCode := 2, errors := errorLine (Analysis.missingDirectory path)
             log := logText settings before }

/-- The settings of a run, from its command line and its configuration. -/
def settings (cwd : Text) (arguments : List Text) (config : Entries) :
    Except UsageError (Reading Settings) := do
  let directory ← directory? arguments
  return Settings.ofEntries cwd (overridden config directory)

/-- A run of the program on a command line and a configuration. -/
def run (env : Environment) (arguments : List Text) (config : Entries) :
    Except Interruption ProgramOutcome :=
  match settings env.currentDirectory arguments config with
  | .error error => .ok { exitCode := 0, errors := error.message env.columns ++ "\n" }
  | .ok reading => checkAndAnalyse env reading

/-- A run of the program on a configuration that is yet to be made a dictionary. A command line that
is refused goes first. -/
def runWith (env : Environment) (arguments : List Text) (config : Value) :
    Except Interruption ProgramOutcome :=
  match directory? arguments, Entries.ofValue config with
  | .ok _, .error fault => .error (.badConfiguration fault)
  | .ok _, .ok entries => run env arguments entries
  | .error _, _ => run env arguments []

/-- The outcome of a run whose output has to be encoded. -/
def deliver (outcome : ProgramOutcome) : Except Interruption ProgramOutcome :=
  match outcome.fault? with
  | some fault => .error (.unprintable fault)
  | none => .ok outcome

end Program

end ClassOrder
