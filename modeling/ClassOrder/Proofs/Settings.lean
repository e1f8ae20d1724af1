import ClassOrder.Settings.Basic
import Mathlib.Data.List.DropRight

/-!
# Reading settings twice

Each field of the settings is read from one entry of a configuration (`value_ofEntries`). Settings
that were read in a directory without white space around its name are read back as they are, with
nothing left to put right (`ofEntries_entries`).
-/

namespace ClassOrder

/-! ## Text without white space around it -/

namespace Text

theorem strip_eq_rdropWhile (t : Text) : t.strip = t.stripLeft.rdropWhile CodePoint.isBlank := rfl

theorem strip_strip (t : Text) : t.strip.strip = t.strip := by
  have noneBefore : t.strip.stripLeft = t.strip := by
    refine List.dropWhile_eq_self_iff.2 fun nonempty => ?_
    have pre : t.strip <+: t.stripLeft := List.rdropWhile_prefix CodePoint.isBlank t.stripLeft
    have longer : 0 < t.stripLeft.length := by
      have := pre.length_le
      omega
    rw [pre.getElem nonempty]
    exact List.dropWhile_get_zero_not CodePoint.isBlank t longer
  rw [strip_eq_rdropWhile, noneBefore]
  exact List.rdropWhile_idempotent CodePoint.isBlank t.stripLeft

end Text

namespace Settings

variable {cwd : Text} {given : Entries} {settings : Settings}

/-! ## Fields -/

/-- The entry of a key, if the configuration has one. -/
def field (given : Entries) (key : Text) (missing : Value) : Value :=
  (given.find? key).getD missing

theorem value_ofEntries (cwd : Text) (given : Entries) :
    (ofEntries cwd given).value =
      { inputPath := (readPath cwd (field given inputPathKey (.text cwd))).value
        skipMalformed := (readFlag true (field given skipMalformedKey .null)).value
        decodeWorkers := (readWorkers ⟨1, Nat.one_pos⟩ (field given decodeWorkersKey .null)).value
        logLevel := (readLevel .warning (field given logLevelKey .null)).value
        others := given.filter fun entry => !isKnownKey entry.1 } := by
  simp only [ofEntries, Reading.value_bind]
  rfl

theorem field_set_of_ne {key other : Text} (h : other ≠ key) (given : Entries) (value : Value)
    (missing : Value) : field (given.set key value) other missing = field given other missing := by
  rw [field, Entries.find?_set_of_ne h, field]

/-! ## Settings that are read back -/

/-- Settings that a configuration can hold as they are. -/
structure Settled (cwd : Text) (settings : Settings) : Prop where
  inputPath : readPath cwd (.text settings.inputPath) = .accepted settings.inputPath
  others : ∀ entry ∈ settings.others, isKnownKey entry.1 = false

theorem readPath_self (trimmed : cwd.strip = cwd) : readPath cwd (.text cwd) = .accepted cwd := by
  simp only [readPath, trimmed]
  split_ifs <;> rfl

theorem readPath_strip {t : Text} (h : t.strip.isEmpty = false) :
    readPath cwd (.text t.strip) = .accepted t.strip := by
  simp only [readPath, Text.strip_strip, h]
  rfl

/-- A path that was read is read again as it is. -/
theorem readPath_value (trimmed : cwd.strip = cwd) (value : Value) :
    readPath cwd (.text (readPath cwd value).value) = .accepted (readPath cwd value).value := by
  cases value with
  | text t =>
    by_cases blank : t.strip.isEmpty = true
    · have fallback : (readPath cwd (.text t)).value = cwd := by
        simp only [readPath, if_pos blank]
        rfl
      rw [fallback, readPath_self trimmed]
    · have kept : (readPath cwd (.text t)).value = t.strip := by
        simp only [readPath, if_neg blank]
        rfl
      rw [kept, readPath_strip (Bool.eq_false_iff.2 blank)]
  | _ => exact readPath_self trimmed

theorem settled_ofEntries (trimmed : cwd.strip = cwd) (given : Entries) :
    Settled cwd (ofEntries cwd given).value := by
  rw [value_ofEntries]
  refine ⟨readPath_value trimmed _, fun entry mem => ?_⟩
  simpa using (List.mem_filter.1 mem).2

theorem readWorkers_val (fallback count : WorkerCount) :
    readWorkers fallback (.int count.val) = .accepted count := by
  have positive : 0 < (count.val : Int) := by have := count.property; omega
  simp only [readWorkers, atLeastOne, dif_pos positive]
  rfl

theorem readLevel_name (fallback level : LevelName) :
    readLevel fallback (.text level.name) = .accepted level := by
  simp only [readLevel, LevelName.ofText?_name]

theorem others_entries (none : ∀ entry ∈ settings.others, isKnownKey entry.1 = false) :
    (settings.entries.filter fun entry => !isKnownKey entry.1) = settings.others := by
  have kept : (settings.others.filter fun entry => !isKnownKey entry.1) = settings.others :=
    List.filter_eq_self.2 fun entry mem => by rw [none entry mem]; rfl
  rw [entries, List.filter_append, kept]
  rfl

/-- Settled settings are accepted as they are. -/
theorem ofEntries_entries (settled : Settled cwd settings) :
    ofEntries cwd settings.entries = .accepted settings := by
  have path (missing : Value) : (settings.entries.find? inputPathKey).getD missing =
      .text settings.inputPath := rfl
  have flag (missing : Value) : (settings.entries.find? skipMalformedKey).getD missing =
      .bool settings.skipMalformed := rfl
  have workers (missing : Value) : (settings.entries.find? decodeWorkersKey).getD missing =
      .int settings.decodeWorkers.val := rfl
  have level (missing : Value) : (settings.entries.find? logLevelKey).getD missing =
      .text settings.logLevel.name := rfl
  simp only [ofEntries, path, flag, workers, level, settled.inputPath, readFlag, readWorkers_val,
    readLevel_name, others_entries settled.others]
  rfl

end Settings

end ClassOrder
