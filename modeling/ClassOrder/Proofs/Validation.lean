import ClassOrder.Proofs.Settings
import ClassOrder.Settings.Validation
import Mathlib

/-!
# Reading a configuration in one pass

Both passes of `Settings.validate` give what the reading of the configuration gives
(`gives_validate`), so the strict one comes to its end exactly if the lenient one has nothing to
warn of, and what comes out of a pass goes through another one as it is.
-/

namespace ClassOrder

/-! ## Passes and readings -/

namespace Validation

variable {α β γ δ : Type}

/-- Passes give what a reading gives: the strict one its value if nothing had to be put right, the
lenient one its value with a warning for each correction. -/
structure Gives (pass : Bool → Validation α) (reading : Reading β) (f : β → α) : Prop where
  lenient : ∀ warnings, (pass false).run warnings =
    .ok (f reading.value, warnings ++ reading.corrections.map Correction.message)
  strict : ∀ warnings, (pass true).run warnings =
    (reading.strict.mapError ConfigFault.refusal).map fun value => (f value, warnings)

namespace Gives

theorem pure (f : β → α) (value : β) :
    Gives (fun _ => Pure.pure (f value)) (.accepted value) f where
  lenient warnings := by rw [Reading.corrections, List.map_nil, List.append_nil]; rfl
  strict _ := rfl

theorem replace (f : β → α) (fault : ConfigFault) (value : β) (replacement : String) :
    Gives (fun strict => do object strict fault replacement; return f value)
      (.replace fault value replacement) f where
  lenient _ := rfl
  strict _ := rfl

theorem convert (conversion : Option (α × Correction)) (fault : ConfigFault) (fallback : α) :
    Gives (convert · conversion fault fallback)
      (conversion.elim (.replace fault fallback "fallback") fun (value, correction) =>
        .corrected value fault correction []) id := by
  cases conversion with
  | none => exact ⟨fun _ => rfl, fun _ => rfl⟩
  | some conversion => exact ⟨fun _ => rfl, fun _ => rfl⟩

theorem bind {pass : Bool → Validation α} {reading : Reading β} {f : β → α}
    {next : Bool → α → Validation γ} {more : β → Reading δ} {g : δ → γ}
    (first : Gives pass reading f) (later : ∀ value, Gives (next · (f value)) (more value) g) :
    Gives (fun strict => pass strict >>= next strict) (reading >>= more) g where
  lenient warnings := by
    rw [StateT.run_bind, first.lenient]
    change (next false (f reading.value)).run _ = _
    rw [(later reading.value).lenient, Reading.value_bind, Reading.corrections_bind,
      List.map_append, List.append_assoc]
  strict warnings := by
    rw [StateT.run_bind, first.strict]
    cases reading with
    | accepted value => exact (later value).strict warnings
    | corrected value fault correction corrections => rfl

end Gives

theorem gives_path (cwd : Text) (value : Value) :
    Gives (path · cwd value) (Settings.readPath cwd value) id := by
  cases value with
  | null => exact .pure id cwd
  | text t => exact .pure id (if t.strip.isEmpty then cwd else t.strip)
  | _ => exact .replace id _ cwd "fallback"

theorem readFlag_of_converted (fallback : Bool) (value : Value) (notNull : value ≠ .null)
    (notBool : ∀ b, value ≠ .bool b) :
    Settings.readFlag fallback value =
      (converted? value).elim
        (.replace (.wrongKind "skip_malformed" "bool" value.kind) fallback "fallback")
        fun (converted, correction) =>
          .corrected converted (.wrongKind "skip_malformed" "bool" value.kind) correction [] := by
  cases value with
  | null => exact absurd rfl notNull
  | bool b => exact absurd rfl (notBool b)
  | text t =>
    simp only [Settings.readFlag, Settings.wordAsBool?, converted?]
    split_ifs <;> rfl
  | int n =>
    simp only [Settings.readFlag, converted?]
    cases (Value.int n).numberAsBool? <;> rfl
  | float digits =>
    simp only [Settings.readFlag, converted?]
    cases (Value.float digits).numberAsBool? <;> rfl
  | list _ | bytes _ | dict _ => rfl

/-- Numbers and words are converted as a reading converts them. -/
theorem gives_flag (fallback : Bool) (value : Value) :
    Gives (flag · fallback value) (Settings.readFlag fallback value) id := by
  have converted := Gives.convert (converted? value)
    (.wrongKind "skip_malformed" "bool" value.kind) fallback
  have reading := readFlag_of_converted fallback value
  cases value with
  | null => exact .pure id fallback
  | bool b => exact .pure id b
  | _ =>
    rw [reading nofun nofun]
    exact converted

/-- A number of workers, as a pass gives it. -/
abbrev ofCount (count : WorkerCount) : Int := count.val

theorem gives_positive (fallback n : Int) (kind : String) :
    Gives (positive · fallback kind (.int n)) (Settings.atLeastOne n) ofCount := by
  simp only [positive, Settings.atLeastOne]
  by_cases least : 0 < n
  · have same : n = (n.toNat : Int) := by omega
    simp only [if_neg (show ¬ n < 1 by omega), dif_pos least]
    nth_rewrite 1 [same]
    exact .pure ofCount ⟨n.toNat, by omega⟩
  · simp only [if_pos (show n < 1 by omega), dif_neg least]
    exact .replace ofCount _ ⟨1, Nat.one_pos⟩ "1"

/-- A text is the one value of which only a lenient pass looks at the number it spells. -/
theorem gives_workers_text (fallback : WorkerCount) (t : Text) :
    Gives (workers · fallback.val (.text t)) (Settings.readWorkers fallback (.text t))
      ofCount := by
  have refused :=
    Gives.replace ofCount (.wrongKind "decode_workers" "int" "str") fallback "fallback"
  cases spelled : t.strip.int? with
  | none =>
    have reading : Settings.readWorkers fallback (.text t) =
        .replace (.wrongKind "decode_workers" "int" "str") fallback "fallback" := by
      simp only [Settings.readWorkers, spelled, Value.kind]
    have kept : number false (.text t) = Pure.pure (.text t) := by simp [number, spelled]
    rw [reading]
    refine ⟨fun warnings => ?_, refused.strict⟩
    change (number false (.text t) >>= positive false fallback.val "str").run warnings = _
    rw [kept]
    exact refused.lenient warnings
  | some n =>
    have reading : Settings.readWorkers fallback (.text t) =
        (Reading.corrected n (.wrongKind "decode_workers" "int" "str") (.textToInt t n) []).bind
          Settings.atLeastOne := by
      simp only [Settings.readWorkers, spelled, Value.kind]
    have read : number false (.text t) = do
        warn (Correction.textToInt t n).message
        return .int n := by
      simp [number, spelled]
    rw [reading]
    refine ⟨fun warnings => ?_, refused.strict⟩
    change (number false (.text t) >>= positive false fallback.val "str").run warnings = _
    rw [read]
    change (positive false fallback.val "str" (.int n)).run
      (warnings ++ [(Correction.textToInt t n).message]) = _
    rw [(gives_positive fallback.val n "str").lenient, List.append_assoc]
    rfl

theorem gives_workers (fallback : WorkerCount) (value : Value) :
    Gives (workers · fallback.val value) (Settings.readWorkers fallback value) ofCount := by
  cases value with
  | null => exact .pure ofCount fallback
  | int n => exact gives_positive fallback.val n "int"
  | text t => exact gives_workers_text fallback t
  | _ => exact .replace ofCount _ fallback "fallback"

/-- A log level, as a pass gives it. -/
abbrev ofLevel (level : LevelName) : Text := level.name

theorem gives_level (fallback : LevelName) (value : Value) :
    Gives (level · fallback.name value) (Settings.readLevel fallback value) ofLevel := by
  have refused := Gives.replace ofLevel (.unknownLevel value) fallback fallback.name
  cases value with
  | null => exact .pure ofLevel fallback
  | text t =>
    simp only [level, Settings.readLevel]
    cases named : LevelName.ofText? t with
    | none =>
      have unknown : ¬ levelNames.contains t.strip.upper := by
        rw [LevelName.ofText?, List.find?_eq_none] at named
        simpa [levelNames] using named
      simp only [if_neg unknown]
      exact refused
    | some found =>
      have same : Text.ofString found.name = t.strip.upper := by
        simpa using List.find?_some named
      have known : levelNames.contains t.strip.upper := by
        rw [← same]
        cases found <;> decide
      simp only [if_pos known]
      rw [← same]
      exact .pure ofLevel found
  | _ => exact refused

end Validation

/-! ## Dictionaries -/

/-- The entries of a configuration, if it is a dictionary. -/
def Value.entries : Value → Entries
  | dict given => given
  | _ => []

namespace Entries

/-- No key stands twice. -/
def Keyed (entries : Entries) : Prop := (entries.map Prod.fst).Nodup

theorem set_of_notMem {entries : Entries} {key : Text} (fresh : key ∉ entries.map Prod.fst)
    (value : Value) : entries.set key value = entries ++ [(key, value)] := by
  induction entries with
  | nil => rfl
  | cons entry entries ih =>
    rw [List.map_cons, List.mem_cons, not_or] at fresh
    rw [set, if_neg (Ne.symm fresh.1), ih fresh.2, List.cons_append]

theorem find?_of_notMem {entries : Entries} {key : Text} (fresh : key ∉ entries.map Prod.fst) :
    entries.find? key = none := by
  rw [find?, List.lookup_eq_none_iff]
  rintro ⟨other, value⟩ mem
  have differs : key ≠ other := by
    rintro rfl
    exact fresh (List.mem_map_of_mem mem)
  simpa using differs

end Entries

namespace Settings

/-- The entries of the four settings, with these values. -/
def fields (path flag workers level : Value) : Entries :=
  [(inputPathKey, path), (skipMalformedKey, flag), (decodeWorkersKey, workers),
    (logLevelKey, level)]

/-- The entries that are none of the settings. -/
def unknown (given : Entries) : Entries := given.filter fun entry => !isKnownKey entry.1

theorem isKnownKey_iff {key : Text} : isKnownKey key ↔ key = inputPathKey ∨
    key = skipMalformedKey ∨ key = decodeWorkersKey ∨ key = logLevelKey := by
  simp [isKnownKey, or_assoc]

/-- An entry counts as what is there if no later one has its key. -/
theorem field_cons {given : Entries} {key : Text} (fresh : key ∉ given.map Prod.fst) (value : Value)
    (other : Text) (missing : Value) :
    field ((key, value) :: given) other missing =
      field given other (if other = key then value else missing) := by
  by_cases same : other = key
  · have none := Entries.find?_of_notMem fresh
    rw [if_pos same, same, field, field, none, Entries.find?, List.lookup_cons_self]
    rfl
  · have differs : (other == key) = false := beq_false_of_ne same
    rw [if_neg same, field, field, Entries.find?, List.lookup_cons, differs]
    rfl

theorem set_fields {key : Text} (known : isKnownKey key) (value path flag workers level : Value)
    (others : Entries) :
    (fields path flag workers level ++ others).set key value =
      fields (if inputPathKey = key then value else path)
        (if skipMalformedKey = key then value else flag)
        (if decodeWorkersKey = key then value else workers)
        (if logLevelKey = key then value else level) ++ others := by
  rcases isKnownKey_iff.1 known with rfl | rfl | rfl | rfl <;> rfl

theorem set_unknown {key : Text} (unknown : isKnownKey key = false) {others : Entries}
    (fresh : key ∉ others.map Prod.fst) (value path flag workers level : Value) :
    (fields path flag workers level ++ others).set key value =
      fields path flag workers level ++ (others ++ [(key, value)]) := by
  have new : key ∉ (fields path flag workers level ++ others).map Prod.fst := by
    rw [List.map_append, List.mem_append, not_or]
    refine ⟨fun mem => ?_, fresh⟩
    have known : isKnownKey key := isKnownKey_iff.2 (by simpa [fields] using mem)
    rw [unknown] at known
    exact Bool.false_ne_true known
  rw [Entries.set_of_notMem new, List.append_assoc]

/-- What is given takes the place of the four settings, or comes behind them. -/
theorem update_fields {given others : Entries} (keyed : given.Keyed)
    (path flag workers level : Value)
    (apart : ∀ entry ∈ others, isKnownKey entry.1 = false ∧ entry.1 ∉ given.map Prod.fst) :
    (fields path flag workers level ++ others).update given =
      fields (field given inputPathKey path) (field given skipMalformedKey flag)
        (field given decodeWorkersKey workers) (field given logLevelKey level) ++
          (others ++ unknown given) := by
  -- One entry more changes a setting or goes behind the others, so all five vary.
  induction given generalizing path flag workers level others with
  | nil => simp [Entries.update, field, Entries.find?, unknown]
  | cons entry given ih =>
    obtain ⟨key, value⟩ := entry
    obtain ⟨fresh, keyed⟩ := List.nodup_cons.1 keyed
    have later : ∀ entry ∈ others, isKnownKey entry.1 = false ∧ entry.1 ∉ given.map Prod.fst :=
      fun entry mem => ⟨(apart entry mem).1, fun again =>
        (apart entry mem).2 (List.mem_cons_of_mem key again)⟩
    simp only [field_cons fresh]
    change Entries.update (Entries.set _ key value) given = _
    cases known : isKnownKey key with
    | true =>
      rw [set_fields known, ih keyed _ _ _ _ later]
      simp [unknown, known]
    | false =>
      have new : key ∉ others.map Prod.fst := by
        rintro again
        obtain ⟨entry, mem, rfl⟩ := List.mem_map.1 again
        exact (apart entry mem).2 (List.mem_cons_self ..)
      have differs : ∀ {other}, isKnownKey other → other ≠ key := by
        rintro other isKnown rfl
        exact Bool.false_ne_true (known.symm.trans isKnown)
      have apart' : ∀ entry ∈ others ++ [(key, value)],
          isKnownKey entry.1 = false ∧ entry.1 ∉ given.map Prod.fst := by
        rw [List.forall_mem_append, List.forall_mem_singleton]
        exact ⟨later, known, fresh⟩
      rw [set_unknown known new, ih keyed _ _ _ _ apart', if_neg (differs rfl),
        if_neg (differs rfl), if_neg (differs rfl), if_neg (differs rfl)]
      simp [unknown, known]

/-! ## The whole pass -/

section Pass

open Validation

variable {given : Entries}

/-- A setting that is missing may be filled in by what is read like nothing. -/
theorem read_field {β : Type} (read : Value → β) (filled : Value)
    (same : read filled = read .null) (key : Text) :
    read (field given key filled) = read (field given key .null) := by
  rw [field, field]
  cases given.find? key with
  | none => exact same
  | some value => rfl

/-- A pass over a dictionary gives what reading it gives. -/
theorem gives_validate_dict (cwd : Text) (keyed : given.Keyed) :
    Gives (validate · cwd (.dict given)) (ofEntries cwd given) entries := by
  have merged : (defaults cwd).entries.update given =
      fields (field given inputPathKey (.text cwd)) (field given skipMalformedKey (.bool true))
        (field given decodeWorkersKey (.int 1)) (field given logLevelKey (.text "WARNING")) ++
          unknown given :=
    update_fields keyed _ _ _ _ nofun
  let one : WorkerCount := ⟨1, Nat.one_pos⟩
  have flagRead := gives_flag true (field given skipMalformedKey (.bool true))
  have workersRead := gives_workers one (field given decodeWorkersKey (.int one.val))
  have levelRead := gives_level .warning (field given logLevelKey (.text LevelName.warning.name))
  rw [read_field (readFlag true) (.bool true) rfl] at flagRead
  rw [read_field (readWorkers one) _ (readWorkers_val one one)] at workersRead
  rw [read_field (readLevel .warning) _ (readLevel_name .warning .warning)] at levelRead
  simp only [validate, merged]
  refine .bind (gives_path cwd _) fun path => ?_
  refine .bind flagRead fun flag => ?_
  refine .bind workersRead fun workers => ?_
  refine .bind levelRead fun level => ?_
  exact .pure entries ⟨path, flag, workers, level, unknown given⟩

/-- Both passes over a configuration give what reading it gives. -/
theorem gives_validate (cwd : Text) {config : Value} (keyed : config.entries.Keyed) :
    Gives (validate · cwd config) (ofValue cwd config) entries := by
  cases config with
  | null => exact .pure entries (defaults cwd)
  | dict given => exact gives_validate_dict cwd keyed
  | _ => exact .replace entries _ (defaults cwd) "defaults"

end Pass

open Validation

/-! ## Strict and lenient passes -/

/-- A strict pass over a configuration comes to its end exactly if the lenient one has nothing to
warn of, and then both give the same dictionary. In every other case it ends over a wrong type or a
wrong value. What the passes give are two views of one reading.

Configurations are plain data, and the keys of dictionaries are texts. The limit that an interpreter
sets to recursion is left out: a message shows the literal of any value, however deeply it nests. -/
theorem validate_strict_iff (cwd : Text) {config : Value} (keyed : config.entries.Keyed) :
    ∃ dictionary warnings, (validate false cwd config).run [] = .ok (dictionary, warnings) ∧
      ((∃ result, (validate true cwd config).run [] = .ok result) ↔ warnings = []) ∧
      (warnings = [] → (validate true cwd config).run [] = .ok (dictionary, [])) ∧
      (warnings ≠ [] → ∃ message,
        (validate true cwd config).run [] = .error (.wrongType message) ∨
          (validate true cwd config).run [] = .error (.wrongValue message)) ∧
      dictionary = (ofValue cwd config).value.entries ∧
      warnings = (ofValue cwd config).corrections.map Correction.message ∧
      (validate true cwd config).run [] =
        ((ofValue cwd config).strict.mapError ConfigFault.refusal).map fun settings =>
          (settings.entries, []) := by
  have gives := gives_validate cwd keyed
  refine ⟨_, _, gives.lenient [], ?_⟩
  rw [gives.strict]
  cases ofValue cwd config with
  | accepted settings =>
    refine ⟨⟨fun _ => rfl, fun _ => ⟨_, rfl⟩⟩, fun _ => rfl, ?_, rfl, rfl, rfl⟩
    exact fun warned => absurd rfl warned
  | corrected settings fault first more =>
    have ended : ∃ message,
        fault.refusal = .wrongType message ∨ fault.refusal = .wrongValue message := by
      cases fault with
      | notDict | wrongKind => exact ⟨_, .inl rfl⟩
      | belowOne | unknownLevel => exact ⟨_, .inr rfl⟩
    obtain ⟨message, ended⟩ := ended
    refine ⟨⟨nofun, nofun⟩, nofun, fun _ => ⟨message, ?_⟩, rfl, rfl, rfl⟩
    exact ended.imp (congrArg Except.error) (congrArg Except.error)

/-- A dictionary with something to trim, to convert, to replace and to put in capitals, and with an
entry besides. -/
def untidy : Entries :=
  [("mode", .text "fast"), ("log_level", .text " debug "), ("decode_workers", .text "0"),
    ("skip_malformed", .int 1), ("input_path", .text " /my classes ")]

def tidied : Entries :=
  fields (.text "/my classes") (.bool true) (.int 1) (.text "DEBUG") ++
    unknown [("mode", .text "fast")]

theorem keyed_untidy : (Value.dict untidy).entries.Keyed := by
  simp only [Value.entries, Entries.Keyed, untidy]
  decide

theorem validate_untidy : (validate false "/home" (.dict untidy)).run [] = .ok (tidied,
    [("Field 'skip_malformed' converted from number 1 to bool." : Text),
      ("Field 'decode_workers' converted from '0' to 0." : Text),
      ("Invalid field 'decode_workers': 0 is below 1. Using 1." : Text)]) := by
  cbv

theorem validate_strict_iff_untidy : (Value.dict untidy).entries.Keyed ∧ ∃ message,
    (validate true "/home" (.dict untidy)).run [] = .error (.wrongType message) ∨
      (validate true "/home" (.dict untidy)).run [] = .error (.wrongValue message) := by
  obtain ⟨dictionary, warnings, lenient, -, -, ended, -⟩ := validate_strict_iff "/home" keyed_untidy
  rw [validate_untidy] at lenient
  cases lenient
  exact ⟨keyed_untidy, ended nofun⟩

/-! ## Dictionaries that stay as they are -/

/-- A path that is taken as it is: something, with no white space around it. -/
def IsPath (path : Text) : Prop := path ≠ [] ∧ path.strip = path

/-- A dictionary in normal form: the four settings with values that are taken as they are, and then
what else was given. -/
def IsNormal (given dictionary : Entries) : Prop :=
  ∃ (path : Text) (flag : Bool) (workers : Int) (level : Text),
    IsPath path ∧ 1 ≤ workers ∧ level ∈ levelNames ∧
      dictionary = fields (.text path) (.bool flag) (.int workers) (.text level) ++ unknown given

theorem keyed_unknown {given : Entries} (keyed : given.Keyed) : (unknown given).Keyed :=
  keyed.sublist (List.filter_sublist.map Prod.fst)

/-- Settings make a dictionary in which no key stands twice. -/
theorem keyed_entries {settings : Settings} (others : settings.others.Keyed)
    (none : ∀ entry ∈ settings.others, isKnownKey entry.1 = false) : settings.entries.Keyed := by
  have four : [inputPathKey, skipMalformedKey, decodeWorkersKey, logLevelKey].Nodup := by decide
  refine four.append others fun key known other => ?_
  obtain ⟨entry, mem, rfl⟩ := List.mem_map.1 other
  have isKnown : isKnownKey entry.1 := isKnownKey_iff.2 (by simpa using known)
  exact Bool.false_ne_true ((none entry mem).symm.trans isKnown)

section Normal

variable {cwd : Text}

theorem isPath_readPath (current : IsPath cwd) (value : Value) :
    IsPath (readPath cwd value).value := by
  cases value with
  | text t =>
    change IsPath (if t.strip.isEmpty then cwd else t.strip)
    split_ifs with blank
    · exact current
    · exact ⟨by simpa using blank, t.strip_strip⟩
  | _ => exact current

/-- What is read from a configuration: a path, and the entries that are none of the settings. -/
theorem value_ofValue (current : IsPath cwd) (config : Value) :
    IsPath (ofValue cwd config).value.inputPath ∧
      (ofValue cwd config).value.others = unknown config.entries := by
  cases config with
  | dict given =>
    rw [ofValue, value_ofEntries]
    exact ⟨isPath_readPath current _, rfl⟩
  | _ => exact ⟨current, rfl⟩

theorem isNormal_entries {settings : Settings} {given : Entries} (path : IsPath settings.inputPath)
    (others : settings.others = unknown given) : IsNormal given settings.entries := by
  refine ⟨settings.inputPath, settings.skipMalformed, settings.decodeWorkers.val,
    settings.logLevel.name, path, ?_, ?_, ?_⟩
  · exact_mod_cast settings.decodeWorkers.property
  · cases settings.logLevel <;> decide
  · rw [← others]
    rfl

/-- A pass over settings with a path and other entries gives them back. -/
theorem validate_entries (cwd : Text) {settings : Settings} (path : IsPath settings.inputPath)
    {given : Entries} (keyed : given.Keyed) (others : settings.others = unknown given) :
    ofEntries cwd settings.entries = .accepted settings ∧ ∀ strict,
      (validate strict cwd (.dict settings.entries)).run [] = .ok (settings.entries, []) := by
  have none : ∀ entry ∈ settings.others, isKnownKey entry.1 = false := fun entry mem => by
    rw [others] at mem
    simpa using (List.mem_filter.1 mem).2
  have nonempty : settings.inputPath.strip.isEmpty = false := by simpa [path.2] using path.1
  have accepted : ofEntries cwd settings.entries = .accepted settings :=
    ofEntries_entries ⟨path.2 ▸ readPath_strip nonempty, none⟩
  have gives := gives_validate_dict cwd (keyed_entries (others ▸ keyed_unknown keyed) none)
  rw [accepted] at gives
  refine ⟨accepted, fun strict => ?_⟩
  cases strict with
  | false => exact gives.lenient []
  | true => exact gives.strict []

/-- A lenient pass always comes to its end, with a dictionary in normal form. Another pass over it,
strict or not, gives it back and has nothing to warn of.

As in `validate_strict_iff`, configurations are plain data with texts as keys, and the limit on the
recursion that writes a literal is left out. -/
theorem validate_normal (current : IsPath cwd) {config : Value} (keyed : config.entries.Keyed) :
    ∃ dictionary warnings, (validate false cwd config).run [] = .ok (dictionary, warnings) ∧
      IsNormal config.entries dictionary ∧
      (∀ strict, (validate strict cwd (.dict dictionary)).run [] = .ok (dictionary, [])) ∧
      dictionary = (ofValue cwd config).value.entries ∧
      ofValue cwd (.dict dictionary) = .accepted (ofValue cwd config).value := by
  obtain ⟨path, others⟩ := value_ofValue current config
  obtain ⟨accepted, again⟩ := validate_entries cwd path keyed others
  exact ⟨_, _, (gives_validate cwd keyed).lenient [], isNormal_entries path others, again, rfl,
    accepted⟩

theorem validate_normal_untidy : IsPath "/home" ∧ (Value.dict untidy).entries.Keyed ∧
    IsNormal untidy tidied ∧
      ∀ strict, (validate strict "/home" (.dict tidied)).run [] = .ok (tidied, []) := by
  have current : IsPath "/home" := ⟨by decide, by decide⟩
  obtain ⟨dictionary, warnings, lenient, normal, again, -⟩ := validate_normal current keyed_untidy
  rw [validate_untidy] at lenient
  cases lenient
  exact ⟨current, keyed_untidy, normal, again⟩

end Normal

end Settings

end ClassOrder
