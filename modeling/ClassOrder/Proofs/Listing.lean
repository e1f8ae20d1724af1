import ClassOrder.Analysis.Listing
import ClassOrder.Proofs.Answers
import Mathlib.Data.List.Lex
import Mathlib.Data.List.Sort

/-!
# Listed class files

The class files of a directory are those of its entries that pass for class files
(`mem_classFiles_iff`), in strictly increasing order of their code points (`pairwise_classFiles`),
whatever the order of the entries (`sorted_eq_of_perm`). One more entry goes to its place in that
order and leaves the others where they are (`exists_split_sorted`).
-/

namespace ClassOrder

/-- The order by code points is the lexicographic one. -/
theorem Text.le_iff (s t : Text) : Text.le s t = true ↔ s ≤ t := by
  induction s generalizing t with
  | nil => cases t <;> simp [Text.le, ← not_lt]
  | cons c s ih =>
    cases t with
    | nil => simp [Text.le]
    | cons d t =>
      rw [← not_lt, List.cons_lt_cons_iff]
      simp only [Text.le, Bool.or_eq_true, decide_eq_true_eq, Bool.and_eq_true, beq_iff_eq, ih,
        ← not_lt]
      rcases lt_trichotomy c d with less | same | more
      · simp [less, less.not_gt, less.ne']
      · simp [same]
      · simp [more, more.not_gt, more.ne']

/-- What a file system keeps to, whatever is in it: a directory does not list a name twice, and a
path that leads to a directory or to a file is a path at all. -/
structure FileSystem.Lawful (files : FileSystem) : Prop where
  nodup_list : ∀ {path names}, files.list path = .ok names → names.Nodup
  list_ne : ∀ {path}, files.isDirectory path → ∀ fault, files.list path ≠ .error (.badPath fault)
  read_ne : ∀ {path}, files.isFile path → ∀ fault, files.read path ≠ .error (.badPath fault)

namespace Listing

variable {files : FileSystem} {directory name : Text} {names entries others : List Text}

/-! ## Order -/

theorem pairwise_sorted (entries : List Text) : (sorted entries).Pairwise (· ≤ ·) := by
  have trans : ∀ s t u : Text, Text.le s t = true → Text.le t u = true → Text.le s u = true := by
    intro s t u
    rw [Text.le_iff, Text.le_iff, Text.le_iff]
    exact le_trans
  have total : ∀ s t : Text, (Text.le s t || Text.le t s) = true := by
    intro s t
    rw [Bool.or_eq_true, Text.le_iff, Text.le_iff]
    exact le_total s t
  exact (List.pairwise_mergeSort trans total entries).imp fun h => (Text.le_iff _ _).1 h

theorem perm_sorted (entries : List Text) : (sorted entries).Perm entries :=
  List.mergeSort_perm entries Text.le

/-- A list in order is what its entries are sorted to. -/
theorem sorted_eq_of_pairwise (ordered : names.Pairwise (· ≤ ·)) (perm : names.Perm entries) :
    sorted entries = names :=
  ((perm_sorted entries).trans perm.symm).eq_of_pairwise' (pairwise_sorted entries) ordered

theorem sorted_eq_of_perm (perm : entries.Perm others) : sorted entries = sorted others :=
  sorted_eq_of_pairwise (pairwise_sorted others) ((perm_sorted others).trans perm.symm)

/-- A new entry goes to its place among the others. -/
theorem exists_split_sorted (new : name ∉ entries) (perm : others.Perm (name :: entries)) :
    ∃ before after, sorted others = before ++ name :: after ∧ sorted entries = before ++ after ∧
      (∀ x ∈ before, x < name) ∧ ∀ x ∈ after, name < x := by
  have mem : name ∈ sorted others := by
    rw [(perm_sorted others).mem_iff, perm.mem_iff]
    exact List.mem_cons_self ..
  obtain ⟨before, after, split⟩ := List.append_of_mem mem
  have ordered : (before ++ name :: after).Pairwise (· ≤ ·) := split ▸ pairwise_sorted others
  have rest : (before ++ after).Perm entries := by
    have whole : (name :: (before ++ after)).Perm (name :: entries) := by
      refine List.perm_middle.symm.trans ?_
      rw [← split]
      exact (perm_sorted others).trans perm
    exact whole.cons_inv
  have other : ∀ x ∈ before ++ after, x ≠ name := by
    intro x hx eq
    exact new (eq ▸ rest.mem_iff.1 hx)
  obtain ⟨_, last, cross⟩ := List.pairwise_append.1 ordered
  have kept : (before ++ after).Sublist (before ++ name :: after) :=
    List.Sublist.append_left (List.sublist_cons_self name after) before
  refine ⟨before, after, split, ?_, ?_, ?_⟩
  · exact sorted_eq_of_pairwise (ordered.sublist kept) rest
  · intro x hx
    exact lt_of_le_of_ne (cross x hx name (List.mem_cons_self ..))
      (other x (List.mem_append_left _ hx))
  · intro x hx
    exact lt_of_le_of_ne (List.rel_of_pairwise_cons last hx)
      (other x (List.mem_append_right _ hx)).symm

/-! ## Candidates -/

theorem isClassFileName_iff (name : Text) :
    isClassFileName name = true ↔ suffix <:+ name ∧ nestedMark ∉ name := by
  simp [isClassFileName, isNested]

theorem displayName_append_suffix (h : suffix <:+ name) : displayName name ++ suffix = name := by
  obtain ⟨stem, rfl⟩ := h
  simp [displayName]

theorem classFiles_eq_ok_iff :
    classFiles files directory = .ok names ↔
      ∃ entries, files.list directory = .ok entries ∧
        (sorted entries).filter (isCandidate files directory) = names := by
  rw [classFiles, bind_eq_ok]
  refine exists_congr fun entries => and_congr_right fun _ => ?_
  exact ⟨fun h => Except.ok.inj h, fun h => congrArg Except.ok h⟩

theorem classFiles_eq_error_iff {error : FileError} :
    classFiles files directory = .error error ↔ files.list directory = .error error := by
  rw [classFiles]
  cases files.list directory with
  | error other => simp [bind, Except.bind]
  | ok entries => simp [bind, Except.bind, pure, Except.pure]

theorem mem_classFiles_iff (listed : files.list directory = .ok entries)
    (found : classFiles files directory = .ok names) :
    name ∈ names ↔ name ∈ entries ∧ suffix <:+ name ∧ nestedMark ∉ name ∧
      files.isFile (Path.join directory name) = true := by
  obtain ⟨entries', listed', rfl⟩ := classFiles_eq_ok_iff.1 found
  obtain rfl : entries = entries' := Except.ok.inj (listed.symm.trans listed')
  rw [List.mem_filter, (perm_sorted entries).mem_iff, isCandidate, Bool.and_eq_true,
    isClassFileName_iff, and_assoc]

theorem pairwise_classFiles (lawful : files.Lawful)
    (found : classFiles files directory = .ok names) : names.Pairwise (· < ·) := by
  obtain ⟨entries, listed, rfl⟩ := classFiles_eq_ok_iff.1 found
  have nodup : (sorted entries).Nodup :=
    (perm_sorted entries).nodup_iff.2 (lawful.nodup_list listed)
  have ordered : (sorted entries).Pairwise (· < ·) :=
    (pairwise_sorted entries).imp₂ (fun _ _ => lt_of_le_of_ne) nodup
  exact ordered.filter _

end Listing

end ClassOrder
