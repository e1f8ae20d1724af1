import ClassOrder.Settings.Basic

/-!
# One pass over a configuration

The defaults are overlaid with what is given, and the four settings are then looked at in turn and
replaced by what they are taken for. A lenient pass collects warnings on its way, a strict one ends
at the first fault. Both give what `Settings.ofValue` reads.
-/

namespace ClassOrder

/-- How a strict pass ends: over a value of the wrong type, or over a wrong value of the right
one. -/
inductive Refusal where
  | wrongType (message : Text)
  | wrongValue (message : Text)
  deriving DecidableEq, Repr

/-- The end that a fault puts to a strict pass. -/
def ConfigFault.refusal (fault : ConfigFault) : Refusal :=
  match fault with
  | notDict _ | wrongKind .. => .wrongType fault.message
  | belowOne _ | unknownLevel _ => .wrongValue fault.message

/-- A pass over a configuration, with the warnings so far. -/
abbrev Validation := StateT (List Text) (Except Refusal)

namespace Validation

def warn (message : Text) : Validation Unit := modify (· ++ [message])

/-- A fault ends a strict pass. A lenient one goes on with something else. -/
def object (strict : Bool) (fault : ConfigFault) (replacement : String) : Validation Unit :=
  if strict then throw fault.refusal else warn (Correction.replaced fault replacement).message

/-- A value that is no good but may be converted, which a strict pass does not do. -/
def convert {α : Type} (strict : Bool) (conversion : Option (α × Correction)) (fault : ConfigFault)
    (fallback : α) : Validation α :=
  match if strict then none else conversion with
  | some (value, correction) => do
    warn correction.message
    return value
  | none => do
    object strict fault "fallback"
    return fallback

/-! ## The settings -/

def path (strict : Bool) (fallback : Text) : Value → Validation Text
  | .null => return fallback
  | .text t => return if t.strip.isEmpty then fallback else t.strip
  | value => do
    object strict (.wrongKind "input_path" "str" value.kind) "fallback"
    return fallback

/-- The truth value that a number or a word is converted to. -/
def converted? : Value → Option (Bool × Correction)
  | .text t =>
    if Settings.trueWords.contains t.strip.lower then some (true, .textToBool t true)
    else if Settings.falseWords.contains t.strip.lower then some (false, .textToBool t false)
    else none
  | number => number.numberAsBool?.map fun b => (b, .numberToBool number)

def flag (strict : Bool) (fallback : Bool) : Value → Validation Bool
  | .bool b => return b
  | .null => return fallback
  | value =>
    convert strict (converted? value) (.wrongKind "skip_malformed" "bool" value.kind) fallback

/-- The value that is looked at as a number. A strict pass does not read texts. -/
def number (strict : Bool) (value : Value) : Validation Value :=
  match value with
  | .text t =>
    match if strict then none else t.strip.int? with
    | some n => do
      warn (Correction.textToInt t n).message
      return .int n
    | none => return value
  | _ => return value

/-- A number of at least one, from a value of some kind. -/
def positive (strict : Bool) (fallback : Int) (kind : String) : Value → Validation Int
  | .int n =>
    if n < 1 then do
      object strict (.belowOne n) "1"
      return 1
    else return n
  | _ => do
    object strict (.wrongKind "decode_workers" "int" kind) "fallback"
    return fallback

def workers (strict : Bool) (fallback : Int) : Value → Validation Int
  | .null => return fallback
  | value => do positive strict fallback value.kind (← number strict value)

def levelNames : List Text := LevelName.all.map fun level => Text.ofString level.name

def level (strict : Bool) (fallback : String) (value : Value) : Validation Text := do
  let refused : Validation Text := do
    object strict (.unknownLevel value) fallback
    return fallback
  match value with
  | .null => return fallback
  | .text t => if levelNames.contains t.strip.upper then return t.strip.upper else refused
  | _ => refused

end Validation

namespace Settings

open Validation

/-- Goes over a configuration once. -/
def validate (strict : Bool) (cwd : Text) (config : Value) : Validation Entries := do
  let defaults := (defaults cwd).entries
  match config with
  | .null => return defaults
  | .dict given =>
    let merged := defaults.update given
    let get (merged : Entries) (key : Text) := (merged.find? key).getD .null
    let path ← path strict cwd (get merged inputPathKey)
    let merged := merged.set inputPathKey (.text path)
    let flag ← flag strict true (get merged skipMalformedKey)
    let merged := merged.set skipMalformedKey (.bool flag)
    let workers ← workers strict 1 (get merged decodeWorkersKey)
    let merged := merged.set decodeWorkersKey (.int workers)
    let level ← level strict "WARNING" (get merged logLevelKey)
    let merged := merged.set logLevelKey (.text level)
    return merged
  | value =>
    object strict (.notDict value.kind) "defaults"
    return defaults

end Settings

end ClassOrder
