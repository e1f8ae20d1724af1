import ClassOrder.ClassFile.Malformed

/-!
# Class names in descriptors

A field or method descriptor, or a generic signature, mentions a class as `L`, then the name, then
`;` or `<`. The scan looks for the next `L`, takes the name up to the first end mark and goes on
behind the mark.
-/

namespace ClassOrder

namespace Descriptor

/-- The letter that starts a class name. -/
def startMark : CodePoint := 0x4C

/-- Whether a code point ends a class name. -/
def isEndMark (c : CodePoint) : Bool := c == 0x3B || c == 0x3C

/-- The names found by a scan, and whether the last one was ended. -/
structure Scan where
  names : List Text
  complete : Bool
  deriving DecidableEq, Repr

/-- What stands behind the next start mark. -/
def afterStart? (t : Text) : Option Text :=
  match t.dropWhile (· != startMark) with
  | [] => none
  | _ :: rest => some rest

/-- A name and what stands behind its end mark. -/
def splitName? (t : Text) : Option (Text × Text) :=
  match t.dropWhile (!isEndMark ·) with
  | [] => none
  | _ :: rest => some (t.takeWhile (!isEndMark ·), rest)

theorem length_afterStart? {t rest : Text} (h : afterStart? t = some rest) :
    rest.length < t.length := by
  unfold afterStart? at h
  split at h
  · contradiction
  · next _ c tail heq =>
    have := (List.dropWhile_sublist (· != startMark) (l := t)).length_le
    rw [heq] at this
    cases h
    simp only [List.length_cons] at this
    omega

theorem length_splitName? {t name rest : Text} (h : splitName? t = some (name, rest)) :
    rest.length < t.length := by
  unfold splitName? at h
  split at h
  · contradiction
  · next _ c tail heq =>
    have := (List.dropWhile_sublist (!isEndMark ·) (l := t)).length_le
    rw [heq] at this
    cases h
    simp only [List.length_cons] at this
    omega

/-- Scans on; `found` holds the names so far, last first. -/
def scanFrom (found : List Text) (t : Text) : Scan :=
  match _hStart : afterStart? t with
  | none => ⟨found.reverse, true⟩
  | some rest =>
    match _hName : splitName? rest with
    | none => ⟨found.reverse, false⟩
    | some (name, behind) => scanFrom (name :: found) behind
termination_by t.length
decreasing_by
  have := length_afterStart? _hStart
  have := length_splitName? _hName
  omega

/-- The class names in a descriptor, in order and with repetitions. -/
def scan (t : Text) : Scan := scanFrom [] t

/-! ## Scanning by positions

The same scan on a text that stays as it is. -/

/-- The first position from an offset on at which a code point stands. -/
def find? (t : Text) (c : CodePoint) (offset : Nat) : Option Nat :=
  ((t.drop offset).findIdx? (· == c)).map (offset + ·)

/-- The position of the first end mark from an offset on: the nearer one of the first `;` and the
first `<`, as far as they are there. -/
def nameEnd? (t : Text) (offset : Nat) : Option Nat :=
  Option.merge min (find? t 0x3B offset) (find? t 0x3C offset)

theorem bounds_of_find? {t : Text} {c : CodePoint} {offset i : Nat} (h : find? t c offset = some i) :
    offset ≤ i ∧ i < t.length := by
  obtain ⟨k, found, rfl⟩ := Option.map_eq_some_iff.1 h
  have lt := (List.findIdx?_eq_some_iff_getElem.1 found).1
  rw [List.length_drop] at lt
  omega

theorem bounds_of_nameEnd? {t : Text} {offset i : Nat} (h : nameEnd? t offset = some i) :
    offset ≤ i ∧ i < t.length := by
  unfold nameEnd? at h
  cases semicolon : find? t 0x3B offset <;> cases bracket : find? t 0x3C offset <;>
    simp [semicolon, bracket, Option.merge] at h
  · exact h ▸ bounds_of_find? bracket
  · exact h ▸ bounds_of_find? semicolon
  · have := bounds_of_find? semicolon
    have := bounds_of_find? bracket
    omega

/-- Scans on from an offset; `found` holds the names so far, last first. -/
def scanAt (found : List Text) (t : Text) (offset : Nat) : Scan :=
  match _hStart : find? t startMark offset with
  | none => ⟨found.reverse, true⟩
  | some start =>
    match _hEnd : nameEnd? t (start + 1) with
    | none => ⟨found.reverse, false⟩
    | some stop => scanAt ((t.take stop).drop (start + 1) :: found) t (stop + 1)
termination_by t.length - offset
decreasing_by
  have := bounds_of_find? _hStart
  have := bounds_of_nameEnd? _hEnd
  omega

/-! ## Names -/

/-- The class names in a descriptor that ends outside a name. -/
def names (t : Text) : Except Malformed (List Text) :=
  let result := scan t
  if result.complete then .ok result.names else .error (.unterminatedName t)

end Descriptor

end ClassOrder
