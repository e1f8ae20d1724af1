import ClassOrder.ClassFile.Basic
import ClassOrder.Log
import Std.Data.HashSet

/-!
# References of a class

The classes a class refers to: the names its file mentions, each once, without its own name and
without nested classes.
-/

namespace ClassOrder

/-- The mark in the name of a nested class. -/
def nestedMark : CodePoint := 0x24

/-- Whether a name is that of a nested class. -/
def isNested (name : Text) : Bool := name.contains nestedMark

/-- Keeps the first occurrence of each name; `seen` are the names that came before, `kept` those of
them to keep, last first. -/
def distinctOnto (seen : Std.HashSet Text) (kept : List Text) : List Text → List Text
  | [] => kept.reverse
  | name :: names =>
    if name ∈ seen then distinctOnto seen kept names
    else distinctOnto (seen.insert name) (name :: kept) names

/-- The first occurrence of each name. -/
def distinct (names : List Text) : List Text := distinctOnto ∅ [] names

theorem nodup_distinctOnto {seen : Std.HashSet Text} {kept names : List Text}
    (h : ∀ x, x ∈ seen ↔ x ∈ kept) (hk : kept.Nodup) : (distinctOnto seen kept names).Nodup := by
  induction names generalizing seen kept with
  | nil => exact List.pairwise_reverse.2 (hk.imp Ne.symm)
  | cons x names ih =>
    rw [distinctOnto]
    split
    · exact ih h hk
    · next hx => exact ih (by grind) (List.nodup_cons.2 ⟨fun hm => hx ((h x).2 hm), hk⟩)

theorem nodup_distinct (names : List Text) : (distinct names).Nodup :=
  nodup_distinctOnto (by simp) List.nodup_nil

/-- A class by its path, and the paths of the classes it refers to. -/
structure ClassSummary where
  classPath : Text
  references : List Text
  deriving DecidableEq, Repr

namespace ClassFile

/-- The references of a class. -/
def references (file : ClassFile) : List Text :=
  distinct (file.mentions.filter fun name => !isNested name && name != file.classPath)

/-- The class and its references. -/
def summary (file : ClassFile) : ClassSummary := ⟨file.classPath, file.references⟩

end ClassFile

namespace ClassSummary

/-- The summary of an encoded class file. -/
def ofBytes (bytes : List UInt8) : Except Malformed ClassSummary :=
  (ClassFile.ofBytes bytes).map ClassFile.summary

/-- What reading the class file reports. -/
def log (summary : ClassSummary) : List LogLine :=
  [⟨.debug, "Decoded " ++ summary.classPath ++ ": " ++ Text.ofNat summary.references.length ++
    " reference(s)"⟩]

end ClassSummary

end ClassOrder
