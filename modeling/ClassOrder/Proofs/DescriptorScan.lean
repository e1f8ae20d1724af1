import ClassOrder.ClassFile.Descriptor
import Mathlib.Data.List.TakeWhile

/-!
# Scanning one code point after another

`Progress.ofText` reads a descriptor with two states: between names it waits for a start mark, in a
name it collects code points up to an end mark. `scanAt` looks for the marks by their positions in a
text that stays as it is. Both find what `scan` finds (`scan_eq_toScan`, `scanAt_eq`), so the
names of a text that ends between names come before those of whatever follows it.
-/

namespace ClassOrder

namespace Descriptor

/-! ## Two states -/

/-- Between names, or in a name of which some code points were read. -/
inductive State where
  | outside
  | inside (part : Text)
  deriving DecidableEq, Repr

/-- The names that were read to their ends, and where the reading stands. -/
structure Progress where
  names : List Text
  state : State
  deriving DecidableEq, Repr

namespace Progress

/-- Reads one more code point. -/
def step (progress : Progress) (c : CodePoint) : Progress :=
  match progress.state with
  | .outside => if c = startMark then ⟨progress.names, .inside []⟩ else progress
  | .inside part =>
    if isEndMark c then ⟨progress.names ++ [part], .outside⟩
    else ⟨progress.names, .inside (part ++ [c])⟩

def run (progress : Progress) (t : Text) : Progress := t.foldl step progress

/-- Reads a whole text, starting between names. -/
def ofText (t : Text) : Progress := run ⟨[], .outside⟩ t

/-- The names read to their ends, which are all if the reading stands between names. -/
def toScan (progress : Progress) : Scan := ⟨progress.names, progress.state = .outside⟩

variable {names before : List Text} {part : Text} {state : State}

theorem run_append (progress : Progress) (t u : Text) :
    progress.run (t ++ u) = (progress.run t).run u := List.foldl_append

theorem run_cons (progress : Progress) (c : CodePoint) (t : Text) :
    progress.run (c :: t) = (progress.step c).run t := rfl

theorem step_startMark : step ⟨names, .outside⟩ startMark = ⟨names, .inside []⟩ := by simp [step]

theorem step_of_ne {c : CodePoint} (h : c ≠ startMark) :
    step ⟨names, .outside⟩ c = ⟨names, .outside⟩ := if_neg h

theorem step_endMark {c : CodePoint} (h : isEndMark c = true) :
    step ⟨names, .inside part⟩ c = ⟨names ++ [part], .outside⟩ := if_pos h

theorem step_of_not_isEndMark {c : CodePoint} (h : isEndMark c = false) :
    step ⟨names, .inside part⟩ c = ⟨names, .inside (part ++ [c])⟩ := by
  simp [step, h]

/-- Between names nothing happens up to the next start mark. -/
theorem run_outside {t : Text} (h : startMark ∉ t) :
    run ⟨names, .outside⟩ t = ⟨names, .outside⟩ := by
  induction t with
  | nil => rfl
  | cons c t ih =>
    obtain ⟨first, later⟩ := not_or.1 (mt List.mem_cons.2 h)
    rw [run_cons, step_of_ne (Ne.symm first)]
    exact ih later

/-- In a name everything is collected up to the next end mark. -/
theorem run_inside {t : Text} (h : ∀ c ∈ t, isEndMark c = false) :
    run ⟨names, .inside part⟩ t = ⟨names, .inside (part ++ t)⟩ := by
  induction t generalizing part with
  | nil => rw [List.append_nil]; rfl
  | cons c t ih =>
    obtain ⟨first, later⟩ := List.forall_mem_cons.1 h
    rw [run_cons, step_of_not_isEndMark first, ih later, List.append_assoc, List.singleton_append]

/-- A whole name between its marks. -/
theorem run_name {name : Text} {mark : CodePoint} (plain : ∀ c ∈ name, isEndMark c = false)
    (h : isEndMark mark = true) (rest : Text) :
    run ⟨names, .outside⟩ (startMark :: (name ++ mark :: rest)) =
      run ⟨names ++ [name], .outside⟩ rest := by
  rw [run_cons, step_startMark, run_append, run_inside plain, run_cons, step_endMark h,
    List.nil_append]

theorem step_append (c : CodePoint) : step ⟨before ++ names, state⟩ c =
    ⟨before ++ (step ⟨names, state⟩ c).names, (step ⟨names, state⟩ c).state⟩ := by
  cases state with
  | outside =>
    by_cases h : c = startMark
    · rw [h, step_startMark, step_startMark]
    · rw [step_of_ne h, step_of_ne h]
  | inside part =>
    by_cases h : isEndMark c = true
    · rw [step_endMark h, step_endMark h, List.append_assoc]
    · rw [Bool.not_eq_true] at h
      rw [step_of_not_isEndMark h, step_of_not_isEndMark h]

/-- The names that were there before have no influence on the reading. -/
theorem run_before (t : Text) : run ⟨before ++ names, state⟩ t =
    ⟨before ++ (run ⟨names, state⟩ t).names, (run ⟨names, state⟩ t).state⟩ := by
  induction t generalizing names state with
  | nil => rfl
  | cons c t ih => rw [run_cons, step_append, ih]; rfl

theorem ofText_append {t : Text} (h : (ofText t).state = .outside) (rest : Text) :
    ofText (t ++ rest) = ⟨(ofText t).names ++ (ofText rest).names, (ofText rest).state⟩ := by
  have here : ofText t = ⟨(ofText t).names ++ [], .outside⟩ := by rw [List.append_nil, ← h]
  calc ofText (t ++ rest)
      = (ofText t).run rest := run_append ..
    _ = run ⟨(ofText t).names ++ [], .outside⟩ rest := congrArg (run · rest) here
    _ = ⟨(ofText t).names ++ (ofText rest).names, (ofText rest).state⟩ := run_before rest

end Progress

/-! ## Marks in a text -/

section Marks

variable {t rest name : Text} {p : CodePoint → Bool}

/-- A text up to the first code point of a kind, and what is behind it. -/
theorem split_of_dropWhile {c : CodePoint} (h : t.dropWhile (!p ·) = c :: rest) :
    p c = true ∧ t = t.takeWhile (!p ·) ++ c :: rest := by
  constructor
  · have stop := List.head_dropWhile_not (!p ·) (l := t) (by simp [h])
    simpa [h] using stop
  · rw [← h, List.takeWhile_append_dropWhile]

theorem notMem_of_afterStart? (h : afterStart? t = none) : startMark ∉ t := by
  unfold afterStart? at h
  split at h
  · next none =>
    intro mem
    simpa using List.dropWhile_eq_nil_iff.1 none _ mem
  · cases h

theorem exists_of_afterStart? (h : afterStart? t = some rest) :
    ∃ before, startMark ∉ before ∧ t = before ++ startMark :: rest := by
  unfold afterStart? at h
  split at h
  · cases h
  · next c tail found =>
    cases h
    obtain ⟨start, split⟩ := split_of_dropWhile (p := (· == startMark)) found
    rw [beq_iff_eq.1 start] at split
    refine ⟨_, fun mem => ?_, split⟩
    simpa using List.mem_takeWhile_imp mem

theorem forall_of_splitName? (h : splitName? t = none) : ∀ c ∈ t, isEndMark c = false := by
  unfold splitName? at h
  split at h
  · next none => simpa using List.dropWhile_eq_nil_iff.1 none
  · cases h

theorem exists_of_splitName? (h : splitName? t = some (name, rest)) :
    ∃ mark, isEndMark mark = true ∧ (∀ c ∈ name, isEndMark c = false) ∧
      t = name ++ mark :: rest := by
  unfold splitName? at h
  split at h
  · cases h
  · next mark tail found =>
    cases h
    obtain ⟨stop, split⟩ := split_of_dropWhile found
    exact ⟨mark, stop, fun c mem => by simpa using List.mem_takeWhile_imp mem, split⟩

end Marks

/-! ## The scan by states -/

theorem scanFrom_of_none {found : List Text} {t : Text} (h : afterStart? t = none) :
    scanFrom found t = ⟨found.reverse, true⟩ := by
  rw [scanFrom]
  split <;> simp_all

theorem scanFrom_of_unended {found : List Text} {t rest : Text} (start : afterStart? t = some rest)
    (h : splitName? rest = none) : scanFrom found t = ⟨found.reverse, false⟩ := by
  rw [scanFrom]
  split <;> simp_all
  split <;> simp_all

theorem scanFrom_of_name {found : List Text} {t rest name behind : Text}
    (start : afterStart? t = some rest) (h : splitName? rest = some (name, behind)) :
    scanFrom found t = scanFrom (name :: found) behind := by
  rw [scanFrom]
  split <;> simp_all
  split <;> simp_all

theorem scanFrom_eq_toScan (found : List Text) (t : Text) :
    scanFrom found t = (Progress.run ⟨found.reverse, .outside⟩ t).toScan := by
  fun_induction scanFrom found t with
  | case1 found t start =>
    rw [Progress.run_outside (notMem_of_afterStart? start)]
    rfl
  | case2 found t rest start unended =>
    obtain ⟨before, free, rfl⟩ := exists_of_afterStart? start
    rw [Progress.run_append, Progress.run_outside free, Progress.run_cons, Progress.step_startMark,
      Progress.run_inside (forall_of_splitName? unended)]
    rfl
  | case3 found t rest start name behind named ih =>
    obtain ⟨before, free, rfl⟩ := exists_of_afterStart? start
    obtain ⟨mark, stop, plain, rfl⟩ := exists_of_splitName? named
    rw [ih, Progress.run_append, Progress.run_outside free, Progress.run_name plain stop,
      List.reverse_cons]

theorem scan_eq_toScan (t : Text) : scan t = (Progress.ofText t).toScan := scanFrom_eq_toScan [] t

/-! ## The scan by positions -/

theorem merge_min_findIdx? (p q : CodePoint → Bool) (t : Text) :
    Option.merge min (t.findIdx? p) (t.findIdx? q) = t.findIdx? fun c => p c || q c := by
  induction t with
  | nil => rfl
  | cons c t ih =>
    simp only [List.findIdx?_cons, ← ih]
    cases p c <;> cases q c <;> cases t.findIdx? p <;> cases t.findIdx? q <;>
      simp [Option.merge, Nat.add_min_add_right]

theorem nameEnd?_eq (t : Text) (offset : Nat) :
    nameEnd? t offset = ((t.drop offset).findIdx? isEndMark).map (offset + ·) := by
  have merged := merge_min_findIdx? (· == 0x3B) (· == 0x3C) (t.drop offset)
  rw [show isEndMark = fun c => c == 0x3B || c == 0x3C from rfl, ← merged, nameEnd?, find?, find?]
  cases (t.drop offset).findIdx? (· == 0x3B) <;> cases (t.drop offset).findIdx? (· == 0x3C) <;>
    simp [Option.merge, Nat.add_min_add_left]

section Positions

variable {t : Text} {p : CodePoint → Bool} {i : Nat}

theorem dropWhile_of_findIdx?_none (h : t.findIdx? p = none) : t.dropWhile (!p ·) = [] := by
  rw [List.dropWhile_eq_nil_iff]
  intro c mem
  rw [List.findIdx?_eq_none_iff.1 h c mem]
  rfl

theorem split_of_findIdx? (h : t.findIdx? p = some i) :
    i < t.length ∧ t.takeWhile (!p ·) = t.take i ∧
      ∃ c, t.dropWhile (!p ·) = c :: t.drop (i + 1) := by
  obtain ⟨lt, first⟩ := List.findIdx?_eq_some_iff_findIdx_eq.1 h
  refine ⟨lt, ?_, t[i], ?_⟩
  · simp [List.takeWhile_eq_take_findIdx_not, first]
  · simp [List.dropWhile_eq_drop_findIdx_not, first]

end Positions

theorem afterStart?_drop (t : Text) (offset : Nat) :
    afterStart? (t.drop offset) = (find? t startMark offset).map fun start => t.drop (start + 1) := by
  unfold afterStart? find?
  rw [show (· != startMark) = fun c => !(c == startMark) from rfl]
  cases h : (t.drop offset).findIdx? (· == startMark) with
  | none =>
    rw [dropWhile_of_findIdx?_none h]
    rfl
  | some i =>
    obtain ⟨-, -, c, behind⟩ := split_of_findIdx? h
    rw [behind, List.drop_drop]
    rfl

theorem splitName?_drop (t : Text) (offset : Nat) :
    splitName? (t.drop offset) =
      (nameEnd? t offset).map fun stop => ((t.take stop).drop offset, t.drop (stop + 1)) := by
  rw [nameEnd?_eq]
  unfold splitName?
  cases h : (t.drop offset).findIdx? isEndMark with
  | none =>
    rw [dropWhile_of_findIdx?_none h]
    rfl
  | some i =>
    obtain ⟨-, name, c, behind⟩ := split_of_findIdx? h
    rw [behind, name, List.drop_drop, List.take_drop]
    rfl

theorem scanAt_eq (found : List Text) (t : Text) (offset : Nat) :
    scanAt found t offset = scanFrom found (t.drop offset) := by
  fun_induction scanAt found t offset with
  | case1 found offset none =>
    have nothing : afterStart? (t.drop offset) = .none := by
      rw [afterStart?_drop, none, Option.map_none]
    rw [scanFrom_of_none nothing]
  | case2 found offset start first none =>
    have behind : afterStart? (t.drop offset) = some (t.drop (start + 1)) := by
      rw [afterStart?_drop, first, Option.map_some]
    have unended : splitName? (t.drop (start + 1)) = .none := by
      rw [splitName?_drop, none, Option.map_none]
    rw [scanFrom_of_unended behind unended]
  | case3 found offset start first stop last ih =>
    have behind : afterStart? (t.drop offset) = some (t.drop (start + 1)) := by
      rw [afterStart?_drop, first, Option.map_some]
    have name : splitName? (t.drop (start + 1)) =
        some ((t.take stop).drop (start + 1), t.drop (stop + 1)) := by
      rw [splitName?_drop, last, Option.map_some]
    rw [ih, scanFrom_of_name behind name]

/-! ## Names and refusals -/

theorem names_eq (t : Text) : names t =
    match (Progress.ofText t).state with
    | .outside => .ok (Progress.ofText t).names
    | .inside _ => .error (.unterminatedName t) := by
  rw [names, scan_eq_toScan, Progress.toScan]
  cases (Progress.ofText t).state with
  | outside => rfl
  | inside part => rfl

theorem names_eq_ok_iff {t : Text} {found : List Text} :
    names t = .ok found ↔ Progress.ofText t = ⟨found, .outside⟩ := by
  rw [names_eq]
  obtain ⟨read, state⟩ := Progress.ofText t
  cases state with
  | outside => simp
  | inside part => simp

/-- A scan by positions, a scan by states and `scan` find the same names, and a text is refused if
the scan by states ends in a name. The names of a text that is not refused come before those of
whatever is put behind it. -/
theorem scan_agrees (t : Text) :
    scanAt [] t 0 = scan t ∧
      (scan t).names = (Progress.ofText t).names ∧
      (names t =
        match (Progress.ofText t).state with
        | .outside => .ok (Progress.ofText t).names
        | .inside _ => .error (.unterminatedName t)) ∧
      ∀ found, names t = .ok found → ∀ rest,
        (scan (t ++ rest)).names = found ++ (scan rest).names ∧
        names (t ++ rest) =
          match names rest with
          | .ok more => .ok (found ++ more)
          | .error _ => .error (.unterminatedName (t ++ rest)) := by
  refine ⟨scanAt_eq [] t 0, by rw [scan_eq_toScan]; rfl, names_eq t, fun found read rest => ?_⟩
  have here := names_eq_ok_iff.1 read
  have both : Progress.ofText (t ++ rest) =
      ⟨found ++ (Progress.ofText rest).names, (Progress.ofText rest).state⟩ := by
    rw [Progress.ofText_append (by rw [here]), here]
  refine ⟨?_, ?_⟩
  · rw [scan_eq_toScan, scan_eq_toScan rest, both]
    rfl
  · rw [names_eq, names_eq rest, both]
    cases (Progress.ofText rest).state with
    | outside => rfl
    | inside part => rfl

-- A name may be empty or hold a start mark, and the names before an unended one are kept.
example : scan "VL;LLA<TLB" = ⟨[("" : Text), ("LA" : Text)], false⟩ := by
  rw [scan_eq_toScan]
  decide

theorem scan_agrees_unended :
    names "(LA<LB;>;" = .ok [("A" : Text), ("B" : Text)] ∧
      names ("(LA<LB;>;" ++ ")LC;LD") = .error (.unterminatedName "(LA<LB;>;)LC;LD") ∧
      (scan ("(LA<LB;>;" ++ ")LC;LD")).names = [("A" : Text), ("B" : Text), ("C" : Text)] := by
  have read : names "(LA<LB;>;" = .ok [("A" : Text), ("B" : Text)] := by
    rw [names_eq_ok_iff]
    decide
  obtain ⟨more, refused⟩ := (scan_agrees "(LA<LB;>;").2.2.2 _ read ")LC;LD"
  refine ⟨read, ?_, ?_⟩
  · rw [refused, names_eq]
    rfl
  · rw [more, scan_eq_toScan]
    decide

end Descriptor

end ClassOrder
