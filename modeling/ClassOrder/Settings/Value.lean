import ClassOrder.Text.Quoted

/-!
# Configuration values

A configuration comes as a value of a small dynamic type, since any of its fields may hold a value
of the wrong kind. A value has a kind name and a literal, which messages show.
-/

namespace ClassOrder

/-- A configuration value. -/
inductive Value where
  | null
  | bool (value : Bool)
  | int (value : Int)
  /-- A floating-point number, by the shortest decimal form that reads back as it. -/
  | float (literal : Text)
  | text (value : Text)
  | list (items : List Value)
  | bytes (value : List UInt8)
  | dict (entries : List (Text × Value))
  deriving Repr

/-- The keys and values of a dictionary, in the order in which the keys were first set. -/
abbrev Entries := List (Text × Value)

namespace Entries

/-- The value of a key. -/
def find? (entries : Entries) (key : Text) : Option Value := entries.lookup key

/-- Sets the value of a key: in place if the dictionary has the key, else at the end. -/
def set (entries : Entries) (key : Text) (value : Value) : Entries :=
  match entries with
  | [] => [(key, value)]
  | (k, v) :: rest => if k = key then (k, value) :: rest else (k, v) :: set rest key value

theorem find?_set_self (entries : Entries) (key : Text) (value : Value) :
    (entries.set key value).find? key = some value := by
  induction entries with
  | nil => simp [set, find?]
  | cons entry rest ih =>
    obtain ⟨k, v⟩ := entry
    by_cases h : k = key
    · simp [set, find?, h]
    · have hb : (key == k) = false := beq_eq_false_iff_ne.2 (Ne.symm h)
      simpa [set, find?, h, List.lookup_cons, hb] using ih

theorem find?_set_of_ne {key other : Text} (h : other ≠ key) (entries : Entries) (value : Value) :
    (entries.set key value).find? other = entries.find? other := by
  induction entries with
  | nil => simp [set, find?, h]
  | cons entry rest ih =>
    obtain ⟨k, v⟩ := entry
    by_cases hk : k = key
    · subst hk
      have hb : (other == k) = false := beq_eq_false_iff_ne.2 h
      simp [set, find?, List.lookup_cons, hb]
    · simp only [set, find?, hk, if_false, List.lookup_cons] at ih ⊢
      rw [ih]

/-- Sets every key of a second dictionary. -/
def update (entries changes : Entries) : Entries :=
  changes.foldl (fun entries (key, value) => entries.set key value) entries

/-- The dictionary that arises from setting keys in order. -/
def ofList (pairs : List (Text × Value)) : Entries := update [] pairs

end Entries

namespace Value

/-- The name of a value's kind. -/
def kind : Value → String
  | null => "NoneType"
  | bool _ => "bool"
  | int _ => "int"
  | float _ => "float"
  | text _ => "str"
  | list _ => "list"
  | bytes _ => "bytes"
  | dict _ => "dict"

mutual

/-- The literal of a value. -/
def literal : Value → Text
  | null => "None"
  | bool true => "True"
  | bool false => "False"
  | int n => Text.ofInt n
  | float digits => digits
  | text t => Text.quoted t
  | list items => Text.bracketed (itemLiterals items)
  | bytes b => Text.quotedBytes b
  | dict entries => "\x7b" ++ Text.joinWith ", " (entryLiterals entries) ++ "\x7d"

/-- The literals of the items of a list. -/
def itemLiterals : List Value → List Text
  | [] => []
  | item :: items => literal item :: itemLiterals items

/-- The literals of the entries of a dictionary. -/
def entryLiterals : List (Text × Value) → List Text
  | [] => []
  | (key, value) :: entries =>
    (Text.quoted key ++ ": " ++ literal value) :: entryLiterals entries

end

/-- The truth value that a number stands for: that of zero or one. -/
def numberAsBool? : Value → Option Bool
  | int 0 => some false
  | int 1 => some true
  | float digits =>
    if digits = Text.ofString "0.0" ∨ digits = Text.ofString "-0.0" then some false
    else if digits = Text.ofString "1.0" then some true
    else none
  | _ => none

end Value

end ClassOrder
