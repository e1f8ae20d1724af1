import ClassOrder.Settings.Value

/-!
# Readings

What comes of reading a configuration value: either it is accepted as it stands, or it is corrected.
A correction keeps what a strict reader holds against the value, and what a lenient reader says
about putting it right. So one reading serves both: they differ only in how it is looked at.
-/

namespace ClassOrder

/-- What is wrong with a configuration. -/
inductive ConfigFault where
  | notDict (received : String)
  | wrongKind (field expected received : String)
  | belowOne (number : Int)
  | unknownLevel (value : Value)
  deriving Repr

namespace ConfigFault

def message : ConfigFault → Text
  | notDict received =>
    "Invalid config type: expected dict, received " ++ Text.ofString received ++ "."
  | wrongKind field expected received =>
    "Invalid field '" ++ Text.ofString field ++ "': expected " ++ Text.ofString expected ++
      ", received " ++ Text.ofString received ++ "."
  | belowOne number =>
    "Invalid field 'decode_workers': " ++ Text.ofInt number ++ " is below 1."
  | unknownLevel value =>
    "Invalid field 'log_level': " ++ value.literal ++ " is not a known level."

end ConfigFault

/-- How a lenient reader puts a value right. -/
inductive Correction where
  /-- Something else is used in place of a faulty value. -/
  | replaced (fault : ConfigFault) (replacement : String)
  | numberToBool (number : Value)
  | textToBool (raw : Text) (value : Bool)
  | textToInt (raw : Text) (value : Int)
  deriving Repr

namespace Correction

def message : Correction → Text
  | replaced fault replacement => fault.message ++ " Using " ++ Text.ofString replacement ++ "."
  | numberToBool number =>
    "Field 'skip_malformed' converted from number " ++ number.literal ++ " to bool."
  | textToBool raw value =>
    "Field 'skip_malformed' converted from '" ++ raw ++ "' to " ++ (Value.bool value).literal ++ "."
  | textToInt raw value =>
    "Field 'decode_workers' converted from '" ++ raw ++ "' to " ++ Text.ofInt value ++ "."

end Correction

/-- The outcome of reading a value. -/
inductive Reading (α : Type) where
  /-- The value is as it should be. -/
  | accepted (value : α)
  /-- The value had to be put right, for which there is at least one correction. -/
  | corrected (value : α) (fault : ConfigFault) (first : Correction) (more : List Correction)

namespace Reading

variable {α β : Type}

/-- The value, put right where needed. -/
def value : Reading α → α
  | accepted value => value
  | corrected value _ _ _ => value

/-- What was put right, in order. -/
def corrections : Reading α → List Correction
  | accepted _ => []
  | corrected _ _ first more => first :: more

/-- The value, if nothing had to be put right. -/
def strict : Reading α → Except ConfigFault α
  | accepted value => .ok value
  | corrected _ fault _ _ => .error fault

/-- Reads on with the value. The first fault counts, and corrections add up. -/
def bind (reading : Reading α) (f : α → Reading β) : Reading β :=
  match reading with
  | accepted value => f value
  | corrected value fault first more =>
    corrected (f value).value fault first (more ++ (f value).corrections)

instance : Monad Reading where
  pure := accepted
  bind := bind

@[simp] theorem value_bind (reading : Reading α) (f : α → Reading β) :
    (reading >>= f).value = (f reading.value).value := by
  cases reading <;> rfl

@[simp] theorem corrections_bind (reading : Reading α) (f : α → Reading β) :
    (reading >>= f).corrections = reading.corrections ++ (f reading.value).corrections := by
  cases reading <;> simp [Bind.bind, bind, corrections, value]

/-- Something else in place of a faulty value. -/
def replace (fault : ConfigFault) (value : α) (replacement : String) : Reading α :=
  corrected value fault (.replaced fault replacement) []

end Reading

end ClassOrder
