import ClassOrder.ClassFile.Malformed
import Mathlib.Data.List.Basic
import Mathlib.Data.List.TakeWhile

/-!
# What messages tell

The numbers in a message can be read back: digits come to an end where the wording goes on. So a
message that gives a place by numbers tells the cause, with all numbers in it (`eq_endOfStream`,
`eq_unknownTag`, `eq_wrongEntry`).
-/

namespace ClassOrder

/-! ## Numbers in a text -/

namespace Text

theorem ofNat_injective : Function.Injective ofNat := by
  intro m n same
  have digits : Nat.toDigits 10 m = Nat.toDigits 10 n := by
    refine List.map_injective_iff.2 (fun c d equal => ?_) same
    exact Char.toNat_inj.1 equal
  have numbers := congrArg (fun digits => Nat.ofDigitChars 10 digits 0) digits
  simpa only [Nat.ofDigitChars_ten_toDigits] using numbers

/-- Whether a code point is one of the digits that numbers are written with. -/
def isDecimal (c : CodePoint) : Bool := '0'.toNat ≤ c && c ≤ '9'.toNat

theorem isDecimal_of_mem_ofNat {n : Nat} {c : CodePoint} (mem : c ∈ ofNat n) :
    isDecimal c = true := by
  obtain ⟨digit, listed, rfl⟩ := List.mem_map.1 mem
  have ten : 0 < 10 ∧ 10 ≤ 10 := by decide
  obtain ⟨low, high⟩ := Char.isDigit_iff_toNat.1 (Nat.isDigit_of_mem_toDigits ten.1 ten.2 listed)
  rw [isDecimal, Bool.and_eq_true, decide_eq_true_iff, decide_eq_true_iff]
  exact ⟨low, high⟩

/-- The text starts with something that is no digit. -/
def EndsNumber (t : Text) : Prop := t.head?.any (!isDecimal ·) = true

instance (t : Text) : Decidable (EndsNumber t) :=
  inferInstanceAs (Decidable (t.head?.any (!isDecimal ·) = true))

theorem EndsNumber.append {t : Text} (h : EndsNumber t) (rest : Text) : EndsNumber (t ++ rest) := by
  cases t with
  | nil => cases h
  | cons c t => exact h

theorem takeWhile_ofNat_append (n : Nat) {t : Text} (h : EndsNumber t) :
    (ofNat n ++ t).takeWhile isDecimal = ofNat n := by
  have nothing : t.takeWhile isDecimal = [] := by
    cases t with
    | nil => rfl
    | cons c t =>
      have other : (!isDecimal c) = true := h
      exact List.takeWhile_cons_of_neg (by simpa using other)
  rw [List.takeWhile_append_of_pos fun c mem => isDecimal_of_mem_ofNat mem, nothing,
    List.append_nil]

theorem ofNat_append_inj {m n : Nat} {t u : Text} (same : ofNat m ++ t = ofNat n ++ u)
    (h : EndsNumber t) (h' : EndsNumber u) : m = n ∧ t = u := by
  have number : ofNat m = ofNat n := by
    rw [← takeWhile_ofNat_append m h, same, takeWhile_ofNat_append n h']
  rw [number] at same
  exact ⟨ofNat_injective number, List.append_cancel_left same⟩

/-- One number can be read back from the wording around it, and so can the wording behind it. -/
theorem number_inj {opening last last' : Text} {k k' : Nat}
    (same : opening ++ ofNat k ++ last = opening ++ ofNat k' ++ last')
    (h : EndsNumber last) (h' : EndsNumber last') : k = k' ∧ last = last' := by
  rw [List.append_assoc, List.append_assoc] at same
  exact ofNat_append_inj (List.append_cancel_left same) h h'

/-- Three numbers can be read back from the wording around them. -/
theorem numbers_inj {opening first second last : Text} {k l m k' l' m' : Nat}
    (same : opening ++ ofNat k ++ first ++ ofNat l ++ second ++ ofNat m ++ last =
      opening ++ ofNat k' ++ first ++ ofNat l' ++ second ++ ofNat m' ++ last)
    (h₁ : EndsNumber first) (h₂ : EndsNumber second) (h₃ : EndsNumber last) :
    k = k' ∧ l = l' ∧ m = m' := by
  simp only [List.append_assoc] at same
  obtain ⟨number₁, rest₁⟩ :=
    ofNat_append_inj (List.append_cancel_left same) (h₁.append _) (h₁.append _)
  obtain ⟨number₂, rest₂⟩ :=
    ofNat_append_inj (List.append_cancel_left rest₁) (h₂.append _) (h₂.append _)
  obtain ⟨number₃, -⟩ := ofNat_append_inj (List.append_cancel_left rest₂) h₃ h₃
  exact ⟨number₁, number₂, number₃⟩

end Text

/-! ## Causes -/

namespace Malformed

open Text

/-- The third code point of the message, in which the wordings differ but for the last two. -/
def third : Malformed → CodePoint
  | endOfStream .. => 'e'.toNat
  | encoding _ => 'v'.toNat
  | unterminatedName _ => 't'.toNat
  | unknownTag .. => 'k'.toNat
  | wrongEntry .. => 'n'.toNat

theorem getElem?_message (cause : Malformed) : cause.message[2]? = some cause.third := by
  cases cause <;> simp only [message, third, List.append_assoc] <;>
    rw [List.getElem?_append_left (by decide)] <;> decide

theorem third_eq {cause other : Malformed} (same : cause.message = other.message) :
    cause.third = other.third := by
  have third := congrArg (·[2]?) same
  simp only [getElem?_message] at third
  exact Option.some.inj third

section Causes

variable {cause : Malformed} {position expected got tag index : Nat}

theorem eq_endOfStream (same : cause.message = (endOfStream position expected got).message) :
    cause = .endOfStream position expected got := by
  have kind := third_eq same
  cases cause with
  | endOfStream position' expected' got' =>
    obtain ⟨rfl, rfl, rfl⟩ := numbers_inj same (by decide) (by decide) (by decide)
    rfl
  | _ => exact absurd kind (by simp [third])

theorem eq_unknownTag (same : cause.message = (unknownTag tag index position).message) :
    cause = .unknownTag tag index position := by
  have kind := third_eq same
  cases cause with
  | unknownTag tag' index' position' =>
    obtain ⟨rfl, rfl, rfl⟩ := numbers_inj same (by decide) (by decide) (by decide)
    rfl
  | _ => exact absurd kind (by simp [third])

theorem endsNumber_denial (kind : EntryKind) : EndsNumber kind.denial := by
  cases kind <;> decide

theorem denial_inj {kind kind' : EntryKind} (same : kind.denial = kind'.denial) : kind = kind' := by
  cases kind <;> cases kind' <;> first | rfl | exact absurd same (by decide)

theorem eq_wrongEntry {kind : EntryKind}
    (same : cause.message = (wrongEntry kind index).message) : cause = .wrongEntry kind index := by
  have first := third_eq same
  cases cause with
  | wrongEntry kind' index' =>
    obtain ⟨rfl, wording⟩ := number_inj same (endsNumber_denial kind') (endsNumber_denial kind)
    rw [denial_inj wording]
  | _ => exact absurd first (by simp [third])

end Causes

end Malformed

end ClassOrder
