import ClassOrder.Settings.Value

/-!
# Dictionaries from values

A base configuration is a dictionary, nothing at all, or a sequence of pairs of a key and a value.
Texts, byte strings, lists and dictionaries are sequences, the last of their keys. A key may be of
any kind that can be compared, but only a text can be the key of a setting, so other keys are left
out.
-/

namespace ClassOrder

/-- Why a value gives no dictionary. -/
inductive PairFault where
  | notSequence (kind : String)
  | elementNotSequence (index : Nat)
  | elementLength (index length : Nat)
  | badKey (kind : String)
  deriving DecidableEq, Repr

namespace PairFault

/-- An element of the sequence, as messages call it. -/
def element (index : Nat) : Text := "dictionary update sequence element #" ++ Text.ofNat index

def message : PairFault → Text
  | notSequence kind => "'" ++ Text.ofString kind ++ "' object is not iterable"
  | elementNotSequence index => "cannot convert " ++ element index ++ " to a sequence"
  | elementLength index length =>
    element index ++ " has length " ++ Text.ofNat length ++ "; 2 is required"
  | badKey kind => "unhashable type: '" ++ Text.ofString kind ++ "'"

end PairFault

namespace Value

/-- The elements of a sequence. -/
def elements? : Value → Option (List Value)
  | text t => some (t.map fun c => text [c])
  | bytes b => some (b.map fun byte => int byte.toNat)
  | list items => some items
  | dict entries => some (entries.map fun entry => text entry.1)
  | _ => none

/-- The key and the value in an element of a sequence of pairs, if it is the key of a setting. -/
def pair? (index : Nat) (element : Value) : Except PairFault (Option (Text × Value)) :=
  match element.elements? with
  | none => .error (.elementNotSequence index)
  | some [key, value] =>
    match key with
    | text name => .ok (some (name, value))
    | list _ | dict _ => .error (.badKey key.kind)
    | _ => .ok none
  | some items => .error (.elementLength index items.length)

end Value

namespace Entries

/-- The dictionary that a value gives. -/
def ofValue (value : Value) : Except PairFault Entries :=
  match value with
  | .null => .ok []
  | .dict entries => .ok entries
  | value =>
    match value.elements? with
    | none => .error (.notSequence value.kind)
    | some items => do
      let pairs ← items.zipIdx.mapM fun (element, index) => Value.pair? index element
      return ofList (pairs.filterMap id)

end Entries

end ClassOrder
