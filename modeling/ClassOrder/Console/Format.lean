import ClassOrder.Console.Layout
import ClassOrder.Log

/-!
# Formats of log lines

A format is a text in which directives stand for the fields of a log line; two percent signs stand
for one. A format without a field is refused. One that is accepted can still hold a directive
without a meaning, and then no line can be shown in it.
-/

namespace ClassOrder

/-- Why a format is refused. -/
inductive FormatFault where
  | noField (format : Text)
  deriving DecidableEq, Repr

namespace FormatFault

def message : FormatFault → Text
  | noField format => "Invalid format '" ++ format ++ "' for '%' style"

end FormatFault

/-- Where and when a line was logged, as the machine knows it. A number with a point is given by its
literal. -/
structure LogOrigin where
  path : Text := []
  fileName : Text := []
  moduleName : Text := []
  functionName : Text := []
  line : Nat := 0
  /-- The seconds since the epoch. -/
  created : Text := "0.0"
  /-- The milliseconds of the last of these seconds. -/
  milliseconds : Text := "0.0"
  /-- The milliseconds since the start of the program. -/
  elapsed : Text := "0.0"
  date : Text := []
  thread : Nat := 0
  process : Nat := 0
  deriving DecidableEq, Repr

namespace LogFormat

def percent : CodePoint := 0x25

/-- The format in use when none is given. -/
def standard : Text := "%(levelname)s | %(message)s"

/-- The format that shows the message alone. An empty format is taken for it. -/
def messageOnly : Text := "%(message)s"

/-- Whether a field stands behind some percent sign. -/
def hasField : Text → Bool
  | [] => false
  | c :: rest => (c == percent && Directive.namesField rest) || hasField rest

/-- Why a format is refused. -/
def fault? (format : Text) : Option FormatFault :=
  if format.isEmpty || hasField format then none else some (.noField format)

/-! ## Pieces -/

/-- A part of a format. -/
inductive Piece where
  | literal (c : CodePoint)
  | directive (directive : Directive)
  deriving DecidableEq, Repr

/-- The piece behind a percent sign, and the rest. -/
def readPiece? (t : Text) : Option (Piece × Text) :=
  if t.head? = some percent then some (.literal percent, t.tail)
  else (Directive.read? t).map fun (directive, rest) => (.directive directive, rest)

/-- The pieces of a format, from behind the next `skipped` code points. There are none if a percent
sign starts no piece. -/
def piecesAfter? : Nat → Text → Option (List Piece)
  | _, [] => some []
  | skipped + 1, _ :: rest => piecesAfter? skipped rest
  | 0, c :: rest =>
    if c = percent then
      match readPiece? rest with
      | some (piece, behind) => (piecesAfter? (rest.length - behind.length) rest).map (piece :: ·)
      | none => none
    else (piecesAfter? 0 rest).map (.literal c :: ·)

/-- The pieces of a format. -/
def pieces? (format : Text) : Option (List Piece) :=
  piecesAfter? 0 (if format.isEmpty then messageOnly else format)

/-! ## Lines -/

/-- The fields of a line of a logger. -/
def record (origin : LogOrigin) (logger : Text) (line : LogLine) : Entries :=
  [("name", .text logger), ("msg", .text line.message), ("args", .null),
    ("levelname", .text line.severity.name), ("levelno", .int line.severity.rank),
    ("pathname", .text origin.path), ("filename", .text origin.fileName),
    ("module", .text origin.moduleName), ("exc_info", .null), ("exc_text", .null),
    ("stack_info", .null), ("lineno", .int origin.line), ("funcName", .text origin.functionName),
    ("created", .float origin.created), ("msecs", .float origin.milliseconds),
    ("relativeCreated", .float origin.elapsed), ("thread", .int origin.thread),
    ("threadName", .text "MainThread"), ("processName", .text "MainProcess"),
    ("process", .int origin.process), ("message", .text line.message),
    ("asctime", .text origin.date)]

/-- The value that a directive is about: a field or, without a name, the whole record, which only
the first directive of a format can show. -/
def subject? (record : Entries) (isFirst : Bool) (directive : Directive) : Option Value :=
  match directive.field with
  | some name => record.find? name
  | none => if isFirst then some (.dict record) else none

/-- What pieces show of a record. -/
def renderPieces? (record : Entries) : Bool → List Piece → Option Text
  | _, [] => some []
  | isFirst, .literal c :: rest => (renderPieces? record isFirst rest).map (c :: ·)
  | isFirst, .directive directive :: rest => do
    let shown ← directive.show? (← subject? record isFirst directive)
    return shown ++ (← renderPieces? record false rest)

/-- A line of a logger in a format, if all of the format has a meaning. -/
def render? (format : Text) (origin : LogOrigin) (logger : Text) (line : LogLine) :
    Option Text := do
  renderPieces? (record origin logger line) true (← pieces? format)

end LogFormat

end ClassOrder
