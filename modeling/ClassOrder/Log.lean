import ClassOrder.Text.Blank
import ClassOrder.Text.Case

/-!
# Log lines

What a run reports about itself: messages with a severity, and the names under which a severity is
chosen.
-/

namespace ClassOrder

/-- How grave a message is. -/
inductive Severity where
  /-- Less than every severity that messages are given. -/
  | unset
  | debug
  | info
  | warning
  | error
  | critical
  deriving DecidableEq, Repr

namespace Severity

/-- The number by which severities are compared. -/
def rank : Severity → Nat
  | unset => 0
  | debug => 10
  | info => 20
  | warning => 30
  | error => 40
  | critical => 50

def name : Severity → String
  | unset => "NOTSET"
  | debug => "DEBUG"
  | info => "INFO"
  | warning => "WARNING"
  | error => "ERROR"
  | critical => "CRITICAL"

def all : List Severity := [unset, debug, info, warning, error, critical]

/-- The second names of severities. -/
def otherNames : List (String × Severity) := [("WARN", warning), ("FATAL", critical)]

/-- The severity with a name. -/
def ofName? (name : String) : Option Severity :=
  (all.find? (·.name == name)).or (otherNames.lookup name)

end Severity

/-- A message of a run. -/
structure LogLine where
  severity : Severity
  message : Text
  deriving DecidableEq, Repr

namespace LogLine

/-- Whether the message is at least as grave as a threshold. -/
def reaches (line : LogLine) (threshold : Severity) : Bool :=
  threshold.rank ≤ line.severity.rank

end LogLine

/-- The names of thresholds. One threshold has two names. -/
inductive LevelName where
  | debug
  | info
  | warning
  | warn
  | error
  | critical
  deriving DecidableEq, Repr

namespace LevelName

def all : List LevelName := [debug, info, warning, warn, error, critical]

def name : LevelName → String
  | debug => "DEBUG"
  | info => "INFO"
  | warning => "WARNING"
  | warn => "WARN"
  | error => "ERROR"
  | critical => "CRITICAL"

/-- The threshold that a name stands for. -/
def severity : LevelName → Severity
  | debug => .debug
  | info => .info
  | warning => .warning
  | warn => .warning
  | error => .error
  | critical => .critical

/-- Names of thresholds are names of severities, and stand for the same. -/
theorem ofName?_name (level : LevelName) : Severity.ofName? level.name = some level.severity := by
  cases level <;> decide

/-- The threshold name that a text spells, in any case and with white space around it. -/
def ofText? (t : Text) : Option LevelName :=
  all.find? fun level => Text.ofString level.name == t.strip.upper

theorem ofText?_name (level : LevelName) : ofText? level.name = some level := by
  cases level <;> decide +kernel

end LevelName

end ClassOrder
