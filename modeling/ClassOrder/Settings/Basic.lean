import ClassOrder.Log
import ClassOrder.Settings.Reading
import ClassOrder.Text.Digit

/-!
# Settings

The settings of a run, and how they are read from a configuration. A field that is missing or null
takes its default.
-/

namespace ClassOrder

/-- A number of workers, at least one. -/
abbrev WorkerCount := { n : Nat // 0 < n }

/-- The settings of a run. -/
structure Settings where
  /-- The directory to look into. -/
  inputPath : Text
  /-- Whether files that cannot be decoded are left out, rather than ending the run. -/
  skipMalformed : Bool
  decodeWorkers : WorkerCount
  logLevel : LevelName
  /-- Entries that have no meaning here, kept in order. -/
  others : Entries

namespace Settings

def inputPathKey : Text := "input_path"

def skipMalformedKey : Text := "skip_malformed"

def decodeWorkersKey : Text := "decode_workers"

def logLevelKey : Text := "log_level"

/-- Whether a key names a setting. -/
def isKnownKey (key : Text) : Bool :=
  key == inputPathKey || key == skipMalformedKey || key == decodeWorkersKey || key == logLevelKey

/-- The settings of a run without a configuration, in a current directory. -/
def defaults (cwd : Text) : Settings :=
  { inputPath := cwd
    skipMalformed := true
    decodeWorkers := ⟨1, Nat.one_pos⟩
    logLevel := .warning
    others := [] }

/-- The settings as a dictionary. -/
def entries (settings : Settings) : Entries :=
  [(inputPathKey, .text settings.inputPath), (skipMalformedKey, .bool settings.skipMalformed),
    (decodeWorkersKey, .int settings.decodeWorkers.val),
    (logLevelKey, .text settings.logLevel.name)] ++ settings.others

/-! ## Reading the fields -/

/-- A path is a text with something besides white space in it. -/
def readPath (fallback : Text) : Value → Reading Text
  | .null => .accepted fallback
  | .text t => .accepted (if t.strip.isEmpty then fallback else t.strip)
  | value => .replace (.wrongKind "input_path" "str" value.kind) fallback "fallback"

/-- The words for yes. -/
def trueWords : List Text := ["true", "1", "yes", "y", "on"]

/-- The words for no. -/
def falseWords : List Text := ["false", "0", "no", "n", "off"]

/-- The truth value that a word stands for. -/
def wordAsBool? (t : Text) : Option Bool :=
  let word := t.strip.lower
  if trueWords.contains word then some true
  else if falseWords.contains word then some false
  else none

/-- A flag is a truth value. Zero and one, and the words for yes and no, can be put right. -/
def readFlag (fallback : Bool) (value : Value) : Reading Bool :=
  let fault := ConfigFault.wrongKind "skip_malformed" "bool" value.kind
  match value with
  | .null => .accepted fallback
  | .bool b => .accepted b
  | .text t =>
    match wordAsBool? t with
    | some b => .corrected b fault (.textToBool t b) []
    | none => .replace fault fallback "fallback"
  | number =>
    match number.numberAsBool? with
    | some b => .corrected b fault (.numberToBool number) []
    | none => .replace fault fallback "fallback"

/-- A number of workers is at least one. -/
def atLeastOne (number : Int) : Reading WorkerCount :=
  if h : 0 < number then .accepted ⟨number.toNat, by omega⟩
  else .replace (.belowOne number) ⟨1, Nat.one_pos⟩ "1"

/-- A number of workers is an integer. A text that spells one can be put right. -/
def readWorkers (fallback : WorkerCount) (value : Value) : Reading WorkerCount :=
  let fault := ConfigFault.wrongKind "decode_workers" "int" value.kind
  match value with
  | .null => .accepted fallback
  | .int number => atLeastOne number
  | .text t =>
    match t.strip.int? with
    | some number =>
      (Reading.corrected number fault (.textToInt t number) []).bind atLeastOne
    | none => .replace fault fallback "fallback"
  | _ => .replace fault fallback "fallback"

/-- A log level is the name of one. -/
def readLevel (fallback : LevelName) (value : Value) : Reading LevelName :=
  let refused := Reading.replace (.unknownLevel value) fallback fallback.name
  match value with
  | .null => .accepted fallback
  | .text t =>
    match LevelName.ofText? t with
    | some level => .accepted level
    | none => refused
  | _ => refused

/-! ## Reading a configuration -/

/-- Reads a dictionary, in the order of the settings. A missing path is the current directory, read
like a given one. -/
def ofEntries (cwd : Text) (given : Entries) : Reading Settings := do
  let fallback := defaults cwd
  let field (key : Text) (missing : Value) := (given.find? key).getD missing
  let inputPath ← readPath cwd (field inputPathKey (.text cwd))
  let skipMalformed ← readFlag fallback.skipMalformed (field skipMalformedKey .null)
  let decodeWorkers ← readWorkers fallback.decodeWorkers (field decodeWorkersKey .null)
  let logLevel ← readLevel fallback.logLevel (field logLevelKey .null)
  let others := given.filter fun entry => !isKnownKey entry.1
  return { inputPath, skipMalformed, decodeWorkers, logLevel, others }

/-- Reads a configuration: a dictionary, or nothing at all. -/
def ofValue (cwd : Text) : Value → Reading Settings
  | .null => .accepted (defaults cwd)
  | .dict given => ofEntries cwd given
  | value => .replace (.notDict value.kind) (defaults cwd) "defaults"

/-- What a lenient reader reports while it reads. -/
def readingLog (corrections : List Correction) : List LogLine :=
  corrections.filterMap fun
    | .replaced (.notDict received) _ => some ⟨.warning, (ConfigFault.notDict received).message⟩
    | _ => none

end Settings

end ClassOrder
