import ClassOrder.Console.Format

/-!
# The console log

Log lines reach the console by way of a handler, which passes them to a listener that writes them.
At most one listener is in use; setting the console up again stops it and takes its handler away.
Handlers of others are left alone.
-/

namespace ClassOrder

/-- What writes lines that handlers pass to it. -/
structure Listener where
  format : Text
  running : Bool
  deriving DecidableEq, Repr

/-- What log lines are given to. -/
inductive Handler where
  /-- Passes lines to the listener with this number. -/
  | console (listener : Nat)
  /-- A handler of someone else, which writes nothing here. -/
  | foreign (label : Nat)
  deriving DecidableEq, Repr

namespace Handler

/-- Whether the handler passes lines to a listener. -/
def isConsole : Handler → Bool
  | console _ => true
  | foreign _ => false

end Handler

/-- How a console log is to be set up. -/
structure ConsoleSetup where
  /-- The name of the threshold. -/
  level : Option Text := some "WARNING"
  /-- Whether lines are written at all. -/
  enabled : Bool := true
  format : Text := LogFormat.standard

namespace ConsoleSetup

/-- The threshold that is named, or that of warnings. -/
def threshold (setup : ConsoleSetup) : Severity :=
  match setup.level.bind LevelName.ofText? with
  | some level => level.severity
  | none => .warning

/-- Why the set-up is refused. The format matters only if lines are written. -/
def fault? (setup : ConsoleSetup) : Option FormatFault :=
  if setup.enabled then LogFormat.fault? setup.format else none

end ConsoleSetup

/-- The state of a console log. -/
structure Console where
  threshold : Severity := .warning
  configured : Bool := false
  handlers : List Handler := []
  /-- All listeners that were started, oldest first. -/
  listeners : List Listener := []
  /-- The number of the listener in use. -/
  current : Option Nat := none
  deriving DecidableEq, Repr

namespace Console

/-- The console log before it is set up. -/
def fresh : Console := {}

/-- Whether a listener is in use. -/
def listening (console : Console) : Bool := console.current.isSome

/-- Takes the handlers away that pass lines to listeners. -/
def removeHandlers (console : Console) : Console :=
  { console with handlers := console.handlers.filter (!·.isConsole) }

/-- Stops the listener in use. -/
def stopListener (console : Console) : Console :=
  match console.current with
  | none => console
  | some number =>
    { console with
      listeners := console.listeners.modify number fun l => { l with running := false }
      current := none }

/-- Starts a listener and adds a handler for it. -/
def startListener (console : Console) (format : Text) : Console :=
  { console with
    handlers := console.handlers ++ [.console console.listeners.length]
    listeners := console.listeners ++ [⟨format, true⟩]
    current := some console.listeners.length }

/-- Whether a request to set the console log up has an effect. Once it is set up there is none,
unless it is forced. -/
def accepts (force : Bool) (console : Console) : Bool := force || !console.configured

/-- Sets the console log up, if the request has an effect. No listener is started for a format that
is refused. -/
def configure (setup : ConsoleSetup) (force : Bool) (console : Console) : Console :=
  if console.accepts force then
    let cleared := stopListener
      (removeHandlers { console with threshold := setup.threshold, configured := true })
    if setup.enabled && setup.fault?.isNone then cleared.startListener setup.format else cleared
  else console

/-- Why setting the console log up fails. -/
def refusal? (setup : ConsoleSetup) (force : Bool) (console : Console) : Option FormatFault :=
  if console.accepts force then setup.fault? else none

/-! ### Setting up change by change

The same as one change after another, of which some are made before a refused format is met. -/

/-- Takes down what is there. -/
def clear (setup : ConsoleSetup) : EStateM FormatFault Console Unit := do
  modify fun console => { console with threshold := setup.threshold }
  modify removeHandlers
  modify stopListener
  modify fun console => { console with configured := true }

/-- Starts a listener if lines are to be written. A format that is refused is met here. -/
def attach (setup : ConsoleSetup) : EStateM FormatFault Console Unit := do
  if setup.enabled then
    if let some fault := LogFormat.fault? setup.format then throw fault
    modify fun console => console.startListener setup.format

/-- A request to set the console log up. One that fails leaves behind what it has changed before. -/
def setUp (setup : ConsoleSetup) (force : Bool) : EStateM FormatFault Console Unit := do
  if (← get).accepts force then
    clear setup
    attach setup

/-! ### Other changes -/

/-- Takes the console log down. The threshold stays. -/
def shutdown (console : Console) : Console :=
  { console.stopListener.removeHandlers with configured := false }

/-- Adds a handler of someone else. -/
def addForeign (label : Nat) (console : Console) : Console :=
  { console with handlers := console.handlers ++ [.foreign label] }

/-- Takes a handler of someone else away. -/
def removeForeign (label : Nat) (console : Console) : Console :=
  { console with handlers := console.handlers.erase (.foreign label) }

/-- The name that a logger is shown with. The one without a name is the root of all loggers. -/
def shownName (logger : Text) : Text := if logger.isEmpty then "root" else logger

/-- What a handler writes for a line, with surrogates escaped. A line that has no meaning in the
format is not written. -/
def writtenBy (console : Console) (origin : LogOrigin) (logger : Text) (line : LogLine) :
    Handler → Text
  | .console number =>
    match console.listeners[number]? with
    | some ⟨format, true⟩ =>
      match LogFormat.render? format origin (shownName logger) line with
      | some shown => Text.escapeSurrogates shown ++ "\n"
      | none => []
    | _ => []
  | .foreign _ => []

/-- What is written for a line from some place. -/
def emitFrom (console : Console) (origin : LogOrigin) (logger : Text) (line : LogLine) : Text :=
  if line.reaches console.threshold then
    console.handlers.flatMap (console.writtenBy origin logger line)
  else []

/-- What is written for a line, wherever it comes from. -/
def emit (console : Console) (logger : Text) (line : LogLine) : Text :=
  console.emitFrom {} logger line

end Console

end ClassOrder
