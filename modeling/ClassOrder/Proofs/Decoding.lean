import ClassOrder.Analysis.Decoding
import ClassOrder.Proofs.Answers
import ClassOrder.Proofs.WorkerPool

/-!
# Decoded files

Decoding gives what comes of working on one file after another (`decodeAll_eq_inOrder`): each name
with its outcome, or the fault of the first name that names no file. The decoded files become
records and the others failures, both in the order of the names (`map_fileName_records`,
`map_fileName_failures`).
-/

namespace ClassOrder

theorem Outcome.ofFile_of_read {files : FileSystem} {directory name : Text} {bytes : List UInt8}
    (read : files.read (Path.join directory name) = .ok bytes) :
    Outcome.ofFile files directory name = .ok (.ofBytes bytes) := by
  rw [Outcome.ofFile, read]

namespace Decoding

variable {files : FileSystem} {directory : Text} {names : List Text}
  {decoded : List (Text × Outcome)}

/-- Each name with its outcome, one after another. -/
def inOrder (files : FileSystem) (directory : Text) (names : List Text) :
    Except PathFault (List (Text × Outcome)) :=
  names.mapM fun name => (Outcome.ofFile files directory name).map (name, ·)

/-! ## All names -/

theorem outcomes_eq_mapM (files : FileSystem) (directory : Text) (names : List Text)
    (workers : Nat) (schedule : Nat → Nat) :
    outcomes files directory names workers schedule =
      names.mapM (Outcome.ofFile files directory) := by
  unfold outcomes
  split_ifs with inline
  · rfl
  · have staffed : 0 < workers := by omega
    rw [WorkerPool.map_eq_map staffed, List.mapM_map]
    rfl

theorem map_zip_mapM (work : Text → Except PathFault Outcome) (names : List Text) :
    (names.mapM work).map names.zip = names.mapM fun name => (work name).map (name, ·) := by
  induction names with
  | nil => rfl
  | cons name names ih =>
    rw [List.mapM_cons, List.mapM_cons, ← ih]
    cases work name with
    | error fault => rfl
    | ok outcome => cases names.mapM work <;> rfl

/-- Neither the number of workers nor their schedule makes a difference. -/
theorem decodeAll_eq_inOrder (files : FileSystem) (directory : Text) (names : List Text)
    (workers : Nat) (schedule : Nat → Nat) :
    decodeAll files directory names workers schedule = inOrder files directory names := by
  rw [decodeAll, outcomes_eq_mapM, map_zip_mapM, inOrder]

theorem inOrder_eq_ok_iff :
    inOrder files directory names = .ok decoded ↔
      decoded.map Prod.fst = names ∧
        ∀ pair ∈ decoded, Outcome.ofFile files directory pair.1 = .ok pair.2 := by
  rw [inOrder, mapM_eq_ok_iff]
  constructor
  · intro h
    induction h with
    | nil => simp
    | cons here _ ih =>
      obtain ⟨outcome, eq, rfl⟩ := map_eq_ok.1 here
      exact ⟨by rw [List.map_cons, ih.1], List.forall_mem_cons.2 ⟨eq, ih.2⟩⟩
  · rintro ⟨rfl, each⟩
    rw [List.forall₂_map_left_iff, List.forall₂_same]
    exact fun pair mem => map_eq_ok.2 ⟨pair.2, each pair mem, rfl⟩

theorem inOrder_eq_error_iff {fault : PathFault} :
    inOrder files directory names = .error fault ↔
      ∃ before name after, names = before ++ name :: after ∧
        (∀ earlier ∈ before, ∃ outcome, Outcome.ofFile files directory earlier = .ok outcome) ∧
        Outcome.ofFile files directory name = .error fault := by
  simp only [inOrder, mapM_eq_error_iff, map_eq_error, map_eq_ok]
  have some_iff : ∀ name, (∃ pair outcome, Outcome.ofFile files directory name = .ok outcome ∧
      (name, outcome) = pair) ↔ ∃ outcome, Outcome.ofFile files directory name = .ok outcome := by
    intro name
    exact ⟨fun ⟨_, outcome, h, _⟩ => ⟨outcome, h⟩, fun ⟨outcome, h⟩ => ⟨_, outcome, h, rfl⟩⟩
  simp only [some_iff]

theorem inOrder_singleton {name : Text} {bytes : List UInt8}
    (read : files.read (Path.join directory name) = .ok bytes) :
    inOrder files directory [name] = .ok [(name, .ofBytes bytes)] := by
  refine inOrder_eq_ok_iff.2 ⟨rfl, fun pair mem => ?_⟩
  obtain rfl := List.mem_singleton.1 mem
  exact Outcome.ofFile_of_read read

/-- What is known of the files decides what is decoded. -/
theorem inOrder_congr {other : FileSystem}
    (same : ∀ name ∈ names, Outcome.ofFile files directory name =
      Outcome.ofFile other directory name) :
    inOrder files directory names = inOrder other directory names := by
  unfold inOrder
  induction names with
  | nil => rfl
  | cons name names ih =>
    obtain ⟨here, later⟩ := List.forall_mem_cons.1 same
    rw [List.mapM_cons, List.mapM_cons, here, ih later]

/-! ## Records and failures -/

/-- Whether a file can be decoded. -/
def decodes (files : FileSystem) (directory name : Text) : Bool :=
  Outcome.ofFile files directory name matches .ok (.decoded _)

theorem map_filterMap_eq_filter {α β κ : Type} {f : α → Option β} {key : α → κ} {view : β → κ}
    {p : κ → Bool} {xs : List α}
    (h : ∀ x ∈ xs, (f x).map view = if p (key x) then some (key x) else none) :
    (xs.filterMap f).map view = (xs.map key).filter p := by
  induction xs with
  | nil => rfl
  | cons x xs ih =>
    obtain ⟨here, later⟩ := List.forall_mem_cons.1 h
    rw [List.map_cons, List.filter_cons, ← ih later, List.filterMap_cons]
    cases made : f x with
    | none =>
      rw [made, Option.map_none] at here
      rw [if_neg fun keep => by simp [keep] at here]
    | some y =>
      rw [made, Option.map_some] at here
      split_ifs at here with keep
      rw [if_pos keep, List.map_cons, Option.some.inj here]

section Sorting

variable (each : ∀ pair ∈ decoded, Outcome.ofFile files directory pair.1 = .ok pair.2)

include each

theorem map_fileName_records :
    (records decoded).map ClassRecord.fileName =
      (decoded.map Prod.fst).filter (decodes files directory) := by
  refine map_filterMap_eq_filter fun pair mem => ?_
  have outcome := each pair mem
  obtain ⟨name, summary | reason⟩ := pair
  · simp [decodes, outcome]
  · simp [decodes, outcome]

theorem map_fileName_failures :
    (failures decoded).map Failure.fileName =
      (decoded.map Prod.fst).filter (!decodes files directory ·) := by
  refine map_filterMap_eq_filter fun pair mem => ?_
  have outcome := each pair mem
  obtain ⟨name, summary | reason⟩ := pair
  · simp [decodes, outcome]
  · simp [decodes, outcome]

theorem ofFile_of_mem_failures {failure : Failure} (mem : failure ∈ failures decoded) :
    Outcome.ofFile files directory failure.fileName = .ok (.failed failure.reason) := by
  obtain ⟨⟨name, outcome⟩, inside, made⟩ := List.mem_filterMap.1 mem
  cases outcome with
  | decoded summary => simp at made
  | failed reason =>
    cases made
    exact each _ inside

theorem ofFile_of_mem_records {record : ClassRecord} (mem : record ∈ records decoded) :
    Outcome.ofFile files directory record.fileName =
      .ok (.decoded ⟨record.classPath, record.references⟩) := by
  obtain ⟨⟨name, outcome⟩, inside, made⟩ := List.mem_filterMap.1 mem
  cases outcome with
  | decoded summary =>
    cases made
    exact each _ inside
  | failed reason => simp at made

end Sorting

theorem className_of_mem_records {record : ClassRecord} (mem : record ∈ records decoded) :
    record.className = Listing.displayName record.fileName := by
  obtain ⟨⟨name, outcome⟩, -, made⟩ := List.mem_filterMap.1 mem
  cases outcome with
  | decoded summary =>
    cases made
    rfl
  | failed reason => simp at made

theorem length_records_add_length_failures (decoded : List (Text × Outcome)) :
    (records decoded).length + (failures decoded).length = decoded.length := by
  induction decoded with
  | nil => rfl
  | cons pair decoded ih =>
    obtain ⟨name, outcome⟩ := pair
    cases outcome with
    | decoded summary =>
      change (records decoded).length + 1 + (failures decoded).length = decoded.length + 1
      omega
    | failed reason =>
      change (records decoded).length + ((failures decoded).length + 1) = decoded.length + 1
      omega

end Decoding

end ClassOrder
