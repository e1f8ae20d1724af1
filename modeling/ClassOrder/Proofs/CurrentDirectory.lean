import ClassOrder.Proofs.Program

/-!
# Runs without arguments

A run without arguments and without a configuration is to analyse the current directory. The path
of that is read like a given one, without the white space around it. So the run looks into the
current directory if the path does not end in white space, and into another one or none at all if it
does (`runWith_unconfigured`). Behind this is that a path does not get longer when it is put in
normal form (`length_normalize_le`), while a text gets shorter when there is white space to be taken
off (`length_strip_lt`).
-/

namespace ClassOrder

/-! ## Texts without their white space -/

namespace Text

theorem length_strip_lt {t : Text} (h : t.strip ≠ t) : t.strip.length < t.length := by
  have within : t.strip <:+: t :=
    (List.rdropWhile_prefix CodePoint.isBlank t.stripLeft).isInfix.trans
      (List.dropWhile_suffix CodePoint.isBlank).isInfix
  refine lt_of_le_of_ne within.length_le fun same => ?_
  exact h (within.eq_of_length same)

/-- What a text starts with stays if it is not blank. -/
theorem head?_strip {c : CodePoint} (visible : c.isBlank = false) (rest : Text) :
    (strip (c :: rest)).head? = some c := by
  have left : stripLeft (c :: rest) = c :: rest := by
    rw [stripLeft, List.dropWhile_cons, visible]
    rfl
  have pre : strip (c :: rest) <+: c :: rest := by
    rw [strip_eq_rdropWhile, left]
    exact List.rdropWhile_prefix ..
  have nonempty : strip (c :: rest) ≠ [] := by
    rw [strip_eq_rdropWhile, left, Ne, List.rdropWhile_eq_nil_iff]
    intro blank
    have := blank c (List.mem_cons_self ..)
    rw [visible] at this
    exact Bool.false_ne_true this
  obtain ⟨more, same⟩ := pre
  rw [← List.head?_append_of_ne_nil _ nonempty, same]
  rfl

theorem length_joinWith (c : CodePoint) (texts : List Text) :
    (joinWith [c] texts).length = (texts.map List.length).sum + (texts.length - 1) := by
  induction texts with
  | nil => rfl
  | cons text texts ih =>
    cases texts with
    | nil => simp [joinWith]
    | cons next texts =>
      rw [joinWith, List.intercalate_cons_cons, List.length_append, List.length_append, ← joinWith,
        ih]
      simp only [List.map_cons, List.sum_cons, List.length_cons, List.length_nil]
      omega

theorem length_joinWith_le (c : CodePoint) {kept all : List Text} (sub : kept.Sublist all) :
    (joinWith [c] kept).length ≤ (joinWith [c] all).length := by
  have lengths := (sub.map List.length).sum_le_sum fun _ _ => Nat.zero_le _
  have count := sub.length_le
  rw [length_joinWith, length_joinWith]
  omega

end Text

/-! ## The length of normal forms -/

namespace Path

/-- What stands behind the slashes at the start of a normal form. -/
def body (path : Text) : Text := Text.joinWith [slash] ((segments path).foldl descend []).reverse

theorem normalize_eq (path : Text) : normalize path = leadingSlashes path ++ body path := rfl

/-- Going down segments only leaves some of them out. -/
theorem sublist_descend (parents segments : List Text) :
    (segments.foldl descend parents).reverse.Sublist (parents.reverse ++ segments) := by
  induction segments generalizing parents with
  | nil => simp
  | cons segment segments ih =>
    have step : (descend parents segment).reverse.Sublist (parents.reverse ++ [segment]) := by
      rw [descend]
      split_ifs
      · exact List.sublist_append_left ..
      · exact (List.tail_sublist parents).reverse.trans (List.sublist_append_left ..)
      · rw [List.reverse_cons]
    rw [List.append_cons]
    exact (ih _).trans (step.append_right segments)

theorem length_body_le (path : Text) : (body path).length ≤ path.length := by
  calc (body path).length
      ≤ (Text.joinWith [slash] (segments path)).length :=
        Text.length_joinWith_le slash (sublist_descend [] (segments path))
    _ = path.length := by rw [Text.joinWith, segments, List.intercalate_splitOn]

theorem body_slash (path : Text) : body (slash :: path) = body path := by
  have first : segments (slash :: path) = [] :: segments path :=
    List.splitOn_append_cons_self_of_not_mem List.not_mem_nil path
  rw [body, first]
  rfl

/-- The slashes that a normal form starts with come from the path. -/
theorem leadingSlashes_eq (path : Text) :
    leadingSlashes path = [slash] ∨
      leadingSlashes path = [slash, slash] ∧ ∃ rest, path = slash :: slash :: rest := by
  unfold leadingSlashes
  split
  · exact .inl rfl
  · exact .inr ⟨rfl, _, rfl⟩
  · exact .inl rfl

theorem exists_of_isAbsolute {path : Text} (absolute : isAbsolute path) :
    ∃ rest, path = slash :: rest := by
  cases path with
  | nil => cases absolute
  | cons c rest =>
    have first : c = slash := by simpa [isAbsolute] using absolute
    exact ⟨rest, by rw [first]⟩

theorem length_normalize_le {path : Text} (absolute : isAbsolute path) :
    (normalize path).length ≤ path.length := by
  rw [normalize_eq, List.length_append]
  rcases leadingSlashes_eq path with one | ⟨two, rest, rfl⟩
  · obtain ⟨rest, rfl⟩ := exists_of_isAbsolute absolute
    have shorter := length_body_le rest
    rw [one, body_slash, List.length_singleton, List.length_cons]
    omega
  · have shorter := length_body_le rest
    rw [two, body_slash, body_slash]
    simp only [List.length_cons, List.length_nil]
    omega

theorem isAbsolute_strip {path : Text} (absolute : isAbsolute path) : isAbsolute path.strip := by
  obtain ⟨rest, rfl⟩ := exists_of_isAbsolute absolute
  rw [isAbsolute, Text.head?_strip (by decide)]
  rfl

/-- A path in normal form is another one without its white space, if it has any. -/
theorem normalize_strip_eq_iff {path : Text} (absolute : isAbsolute path)
    (normal : normalize path = path) : normalize path.strip = path ↔ path.strip = path := by
  refine ⟨fun same => ?_, fun trimmed => by rw [trimmed, normal]⟩
  by_contra other
  -- Without its white space the path is too short to have this normal form.
  have shorter := Text.length_strip_lt other
  have notLonger := length_normalize_le (isAbsolute_strip absolute)
  rw [same] at notLonger
  omega

/-- An absolute path is resolved wherever it is taken from. -/
theorem resolve_of_isAbsolute {path : Text} (absolute : isAbsolute path) (cwd : Text)
    (homes : Homes) : resolve cwd homes path = .ok (normalize path) := by
  obtain ⟨rest, rfl⟩ := exists_of_isAbsolute absolute
  rfl

end Path

/-! ## The directory of a run without arguments -/

namespace Program

variable {env : Environment} {settings : Settings} {path : Text} {outcome : ProgramOutcome}

/-- Only a missing directory makes the exit code two. -/
theorem Obeys.exitCode_eq_two_iff (obeys : Obeys env settings path outcome) :
    outcome.exitCode = 2 ↔ ¬ env.files.isDirectory path := by
  refine ⟨fun two present => ?_, fun missing => (obeys.missing missing).1⟩
  by_cases fails : Fails env.files settings.skipMalformed path
  · have one := (obeys.failed present fails).1
    omega
  · have zero := (obeys.reported present fails).1
    omega

/-- A run looks into a directory: it makes sure of this one, analyses this one, and leaves behind
what there is to say about it. -/
structure LooksInto (env : Environment) (settings : Settings) (path : Text)
    (outcome : ProgramOutcome) : Prop where
  checked : target env.currentDirectory env.homes settings = .ok path
  analysed : Analysis.run env (.dict settings.entries) =
    (Analysis.ofDirectory env settings path).map fun result =>
      (result.1, Analysis.openingLog [] ++ result.2)
  obeys : Obeys env settings path outcome

/-- The settings of a run without arguments and without a configuration. -/
def unconfigured (cwd : Text) : Settings := (Settings.ofEntries cwd []).value

section Absolute

variable {cwd : Text} (absolute : Path.isAbsolute cwd)

include absolute

theorem strip_ne_nil : cwd.strip ≠ [] := by
  obtain ⟨rest, same⟩ := Path.exists_of_isAbsolute (Path.isAbsolute_strip absolute)
  rw [same]
  exact List.cons_ne_nil Path.slash rest

theorem inputPath_unconfigured : (unconfigured cwd).inputPath = cwd.strip := by
  rw [unconfigured, Settings.value_ofEntries]
  change (Settings.readPath cwd (.text cwd)).value = _
  rw [value_readPath]
  exact if_neg (strip_ne_nil absolute)

theorem settled_unconfigured : Settings.Settled cwd (unconfigured cwd) := by
  refine ⟨?_, nofun⟩
  rw [inputPath_unconfigured absolute]
  exact Settings.readPath_strip (by simpa using strip_ne_nil absolute)

theorem target_unconfigured (homes : Homes) :
    target cwd homes (unconfigured cwd) = .ok (Path.normalize cwd.strip) := by
  rw [target, inputPath_unconfigured absolute]
  exact Path.resolve_of_isAbsolute (Path.isAbsolute_strip absolute) cwd homes

end Absolute

/-- A run without arguments and without a configuration looks into one directory, and its exit code
is two exactly if this directory is missing. In a current directory that exists, it is the current
one exactly if the path of that does not end in white space, and then it is not missing. -/
theorem runWith_unconfigured (lawful : env.files.Lawful)
    (absolute : Path.isAbsolute env.currentDirectory)
    (normal : Path.normalize env.currentDirectory = env.currentDirectory)
    (present : env.files.isDirectory env.currentDirectory) :
    ∃ path outcome, runWith env [] .null = .ok outcome ∧
      LooksInto env (unconfigured env.currentDirectory) path outcome ∧
      (outcome.exitCode = 2 ↔ ¬ env.files.isDirectory path) ∧
      (path = env.currentDirectory ↔ env.currentDirectory.strip = env.currentDirectory) ∧
      (env.currentDirectory.strip = env.currentDirectory → outcome.exitCode ≠ 2) := by
  have settled := settled_unconfigured absolute
  have resolved := target_unconfigured absolute env.homes
  have here := Path.normalize_strip_eq_iff absolute normal
  have allowed : ¬ Refused [] := by simp [Refused]
  obtain ⟨outcome, ended, obeys⟩ :
      ∃ outcome, checkAndAnalyse env (Settings.ofEntries env.currentDirectory []) = .ok outcome ∧
        Obeys env (unconfigured env.currentDirectory) _ outcome :=
    exists_obeys_checkAndAnalyse lawful settled resolved
  refine ⟨_, outcome, (runWith_of_not_refused allowed rfl).trans ended,
    ⟨resolved, run_entries settled resolved, obeys⟩, obeys.exitCode_eq_two_iff, here, ?_⟩
  intro trimmed two
  rw [here.2 trimmed] at obeys
  exact obeys.exitCode_eq_two_iff.1 two present

/-- A run that is started in a directory that the tree holds alone. -/
def startedIn (directory : Text) : Environment :=
  (FileTree.empty.add directory .directory).environment directory "/" {}

theorem lawful_startedIn (directory : Text) : (startedIn directory).files.Lawful := by
  dsimp only [startedIn, FileTree.environment]
  exact FileTree.lawful_fileSystem ..

theorem runWith_unconfigured_innerBlank :
    (startedIn "/my dir").files.Lawful ∧ (startedIn "/my dir").currentDirectory = "/my dir" ∧
      (startedIn "/my dir").files.isDirectory "/my dir" ∧
      ∃ outcome, runWith (startedIn "/my dir") [] .null = .ok outcome ∧
        LooksInto (startedIn "/my dir") (unconfigured "/my dir") "/my dir" outcome ∧
        outcome.exitCode ≠ 2 := by
  have lawful := lawful_startedIn "/my dir"
  have current : (startedIn "/my dir").currentDirectory = "/my dir" := by cbv
  have present : (startedIn "/my dir").files.isDirectory "/my dir" := by cbv
  have trimmed : Text.strip "/my dir" = "/my dir" := by cbv
  have normal : Path.normalize "/my dir" = "/my dir" := by cbv
  obtain ⟨path, outcome, ended, into, -, here, code⟩ :=
    runWith_unconfigured lawful (current.symm ▸ rfl) (current.symm ▸ normal)
      (current.symm ▸ present)
  rw [current] at into here code
  obtain rfl := here.2 trimmed
  exact ⟨lawful, current, present, outcome, ended, into, code trimmed⟩

/-- In a current directory whose path ends in white space, the run looks for another one. -/
theorem runWith_blankEnd :
    (startedIn "/a ").files.Lawful ∧ (startedIn "/a ").currentDirectory = "/a " ∧
      Path.normalize "/a " = "/a " ∧ (startedIn "/a ").files.isDirectory "/a " ∧
      runWith (startedIn "/a ") [] .null =
        .ok { exitCode := 2, errors := errorLine (Analysis.missingDirectory "/a") } := by
  have current : (startedIn "/a ").currentDirectory = "/a " := by cbv
  have missing : (startedIn "/a ").files.isDirectory "/a" = false := by cbv
  have stripped : Path.normalize (Text.strip "/a ") = "/a" := by cbv
  have resolved : target "/a " (startedIn "/a ").homes
      (Settings.ofEntries "/a " []).value = .ok "/a" :=
    (target_unconfigured rfl _).trans (congrArg Except.ok stripped)
  refine ⟨lawful_startedIn _, current, by cbv, by cbv, ?_⟩
  change checkAndAnalyse _ (Settings.ofEntries _ []) = _
  rw [checkAndAnalyse, current, resolved]
  simp only [Except.mapError, bind, Except.bind, missing]
  rfl

end Program

end ClassOrder
