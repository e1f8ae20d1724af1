import ClassOrder.Proofs.DescriptorScan

/-!
# Generic signatures

The grammar of class, method and field signatures, without suffixes for inner classes, and what a
scan makes of them. The scan takes every start mark between names for the start of a class name, so
it goes wrong on identifiers of type variables and type parameters that hold a start mark, and on no
others (`names_eq_ok_iff_unmarked`).
-/

namespace ClassOrder

namespace Signature

open Descriptor

/-! ## Phrases -/

/-- The code points that no identifier holds. -/
def delimiters : Text := ".;[/<>:"

/-- A text without delimiters. -/
abbrev Identifier := { id : Text // ∀ c ∈ id, c ∉ delimiters }

/-- A class by its packages and its own identifier. -/
structure ClassName where
  packages : List Identifier
  simple : Identifier

/-- Each package is followed by a slash. -/
def ClassName.text (name : ClassName) : Text :=
  (name.packages.flatMap fun package => package.val ++ ['/'.toNat]) ++ name.simple.val

/-- A part of a signature: how it is written, the names of its class types in the order in which
they stand there, and the identifiers of its type variables and type parameters. -/
structure Phrase where
  text : Text
  names : List Text
  identifiers : List Text

namespace Phrase

instance : Append Phrase :=
  ⟨fun p q => ⟨p.text ++ q.text, p.names ++ q.names, p.identifiers ++ q.identifiers⟩⟩

def empty : Phrase := ⟨[], [], []⟩

def mark (c : Char) : Phrase := ⟨[c.toNat], [], []⟩

/-- A class type up to the mark that ends its name. -/
def classType (name : ClassName) (stop : Char) : Phrase :=
  ⟨startMark :: (name.text ++ [stop.toNat]), [name.text], []⟩

def typeVariable (id : Identifier) : Phrase := ⟨'T'.toNat :: (id.val ++ [';'.toNat]), [], [id.val]⟩

/-- A type parameter up to the mark of its first bound. -/
def typeParameter (id : Identifier) : Phrase := ⟨id.val ++ [':'.toNat], [], [id.val]⟩

/-- No identifier of a type variable or type parameter holds a start mark. -/
def Unmarked (phrase : Phrase) : Prop := ∀ id ∈ phrase.identifiers, startMark ∉ id

end Phrase

/-! ## The grammar -/

/-- The parts of signatures. -/
inductive Part where
  | javaType | reference | classType | typeVariable | argument | bound | parameter | parameters
  | result | exception | ofClass | ofMethod | ofField
  | list (item : Part)

/-- The letters of the primitive types. -/
def baseTypes : List Char := ['B', 'C', 'D', 'F', 'I', 'J', 'S', 'Z']

theorem ne_startMark_of_mem_baseTypes {letter : Char} (mem : letter ∈ baseTypes) :
    letter.toNat ≠ startMark := by
  have letters : baseTypes.all (·.toNat != startMark) = true := by decide
  exact bne_iff_ne.1 (List.all_eq_true.1 letters letter mem)

/-- The phrases that are parts of signatures. -/
inductive Derives : Part → Phrase → Prop
  | nil {item : Part} : Derives (.list item) .empty
  | cons {item : Part} {p q : Phrase} :
    Derives item p → Derives (.list item) q → Derives (.list item) (p ++ q)
  | base {c : Char} : c ∈ baseTypes → Derives .javaType (.mark c)
  | javaType {p : Phrase} : Derives .reference p → Derives .javaType p
  | ofClassType {p : Phrase} : Derives .classType p → Derives .reference p
  | ofTypeVariable {p : Phrase} : Derives .typeVariable p → Derives .reference p
  | array {p : Phrase} : Derives .javaType p → Derives .reference (.mark '[' ++ p)
  | typeVariable (id : Identifier) : Derives .typeVariable (.typeVariable id)
  | plain (name : ClassName) : Derives .classType (.classType name ';')
  | generic (name : ClassName) {p q : Phrase} : Derives .argument p → Derives (.list .argument) q →
    Derives .classType (.classType name '<' ++ (p ++ (q ++ (.mark '>' ++ .mark ';'))))
  | any : Derives .argument (.mark '*')
  | exactly {p : Phrase} : Derives .reference p → Derives .argument p
  | extending {p : Phrase} : Derives .reference p → Derives .argument (.mark '+' ++ p)
  | extended {p : Phrase} : Derives .reference p → Derives .argument (.mark '-' ++ p)
  | bound {p : Phrase} : Derives .reference p → Derives .bound (.mark ':' ++ p)
  | parameter (id : Identifier) {p q : Phrase} : Derives .reference p → Derives (.list .bound) q →
    Derives .parameter (.typeParameter id ++ (p ++ q))
  /-- The first bound is a class and may be missing. -/
  | classless (id : Identifier) {q : Phrase} : Derives (.list .bound) q →
    Derives .parameter (.typeParameter id ++ q)
  | parameters {p q : Phrase} : Derives .parameter p → Derives (.list .parameter) q →
    Derives .parameters (.mark '<' ++ (p ++ (q ++ .mark '>')))
  | parameterless : Derives .parameters .empty
  | void : Derives .result (.mark 'V')
  | result {p : Phrase} : Derives .javaType p → Derives .result p
  | throwsClass {p : Phrase} : Derives .classType p → Derives .exception (.mark '^' ++ p)
  | throwsVariable {p : Phrase} : Derives .typeVariable p → Derives .exception (.mark '^' ++ p)
  /-- Type parameters, the superclass and the interfaces. -/
  | ofClass {p q r : Phrase} : Derives .parameters p → Derives .classType q →
    Derives (.list .classType) r → Derives .ofClass (p ++ (q ++ r))
  /-- Type parameters, parameters, the result and the exceptions. -/
  | ofMethod {p q r s : Phrase} : Derives .parameters p → Derives (.list .javaType) q →
    Derives .result r → Derives (.list .exception) s →
    Derives .ofMethod (p ++ (.mark '(' ++ (q ++ (.mark ')' ++ (r ++ s)))))
  | ofField {p : Phrase} : Derives .reference p → Derives .ofField p

/-! ## Marks in identifiers -/

/-- The mark before a bound, which ends no name. -/
def boundMark : CodePoint := ':'.toNat

theorem delimiters_eq : delimiters = [0x2E, 0x3B, 0x5B, 0x2F, 0x3C, 0x3E, 0x3A] := by decide

theorem Identifier.not_isEndMark (id : Identifier) : ∀ c ∈ id.val, isEndMark c = false := by
  intro c mem
  have free := id.property c mem
  simp only [delimiters_eq, List.mem_cons, List.not_mem_nil, or_false, not_or] at free
  simp [isEndMark, free]

theorem Identifier.boundMark_notMem (id : Identifier) : boundMark ∉ id.val :=
  fun mem => id.property _ mem (by decide)

theorem ClassName.mem_text {name : ClassName} {c : CodePoint} (h : c ∈ name.text) :
    c = '/'.toNat ∨ ∃ id : Identifier, c ∈ id.val := by
  rcases List.mem_append.1 h with mem | mem
  · obtain ⟨package, -, mem⟩ := List.mem_flatMap.1 mem
    rcases List.mem_append.1 mem with mem | mem
    · exact .inr ⟨package, mem⟩
    · exact .inl (List.mem_singleton.1 mem)
  · exact .inr ⟨name.simple, mem⟩

theorem ClassName.not_isEndMark (name : ClassName) : ∀ c ∈ name.text, isEndMark c = false := by
  intro c mem
  rcases mem_text mem with rfl | ⟨id, mem⟩
  · decide
  · exact id.not_isEndMark c mem

theorem ClassName.boundMark_notMem (name : ClassName) : boundMark ∉ name.text := by
  intro mem
  rcases mem_text mem with slash | ⟨id, mem⟩
  · exact absurd slash (by decide)
  · exact id.boundMark_notMem mem

/-- A scan that comes between names to an identifier with a start mark is in a name behind it. -/
theorem Identifier.run_of_mem {id : Identifier} (h : startMark ∈ id.val) (names : List Text) :
    ∃ part, Progress.run ⟨names, .outside⟩ id.val = ⟨names, .inside part⟩ := by
  obtain ⟨before, after, split, free⟩ := List.eq_append_cons_of_mem h
  have plain : ∀ c ∈ after, isEndMark c = false := by
    intro c mem
    apply id.not_isEndMark c
    rw [split]
    exact List.mem_append_right _ (List.mem_cons_of_mem _ mem)
  refine ⟨[] ++ after, ?_⟩
  rw [split, Progress.run_append, Progress.run_outside free, Progress.run_cons,
    Progress.step_startMark, Progress.run_inside plain]

/-! ## Scans that went astray -/

/-- The mark before a bound was taken into a name, which happens to no class name. -/
def Astray (progress : Progress) : Prop :=
  (∃ name ∈ progress.names, boundMark ∈ name) ∨
    ∃ part, progress.state = .inside part ∧ boundMark ∈ part

theorem Astray.step {progress : Progress} (h : Astray progress) (c : CodePoint) :
    Astray (progress.step c) := by
  obtain ⟨names, state⟩ := progress
  cases state with
  | outside =>
    obtain ⟨name, mem, marked⟩ | ⟨part, inside, -⟩ := h
    · by_cases start : c = startMark
      · rw [start, Progress.step_startMark]
        exact .inl ⟨name, mem, marked⟩
      · rw [Progress.step_of_ne start]
        exact .inl ⟨name, mem, marked⟩
    · cases inside
  | inside part =>
    by_cases stop : isEndMark c = true
    · rw [Progress.step_endMark stop]
      obtain ⟨name, mem, marked⟩ | ⟨_, ⟨⟩, marked⟩ := h
      · exact .inl ⟨name, List.mem_append_left _ mem, marked⟩
      · exact .inl ⟨part, by simp, marked⟩
    · rw [Progress.step_of_not_isEndMark (by simpa using stop)]
      obtain ⟨name, mem, marked⟩ | ⟨_, ⟨⟩, marked⟩ := h
      · exact .inl ⟨name, mem, marked⟩
      · exact .inr ⟨_, rfl, List.mem_append_left _ marked⟩

theorem Astray.run {progress : Progress} (h : Astray progress) (t : Text) :
    Astray (progress.run t) := by
  induction t generalizing progress with
  | nil => exact h
  | cons c t ih => exact ih (h.step c)

/-- What a scan makes of a phrase between names. -/
structure Scanned (phrase : Phrase) : Prop where
  read : phrase.Unmarked → Progress.ofText phrase.text = ⟨phrase.names, .outside⟩
  notMem : ∀ name ∈ phrase.names, boundMark ∉ name
  /-- A scan that does not go astray finds one name more for each identifier with a start mark. -/
  counted : Astray (Progress.ofText phrase.text) ∨
    ∃ found, Progress.ofText phrase.text = ⟨found, .outside⟩ ∧
      found.length = phrase.names.length + phrase.identifiers.countP (startMark ∈ ·)

namespace Scanned

theorem empty : Scanned .empty where
  read _ := rfl
  notMem _ mem := absurd mem List.not_mem_nil
  counted := .inr ⟨[], rfl, rfl⟩

theorem mark {c : Char} (h : c.toNat ≠ startMark) : Scanned (.mark c) where
  read _ := Progress.step_of_ne h
  notMem _ mem := absurd mem List.not_mem_nil
  counted := .inr ⟨[], Progress.step_of_ne h, rfl⟩

theorem append {p q : Phrase} (hp : Scanned p) (hq : Scanned q) : Scanned (p ++ q) where
  read unmarked := by
    obtain ⟨first, second⟩ := List.forall_mem_append.1 unmarked
    have here := hp.read first
    have later := hq.read second
    change Progress.ofText (p.text ++ q.text) = ⟨p.names ++ q.names, .outside⟩
    rw [Progress.ofText_append (by rw [here]), here, later]
  notMem := List.forall_mem_append.2 ⟨hp.notMem, hq.notMem⟩
  counted := by
    change Astray (Progress.ofText (p.text ++ q.text)) ∨
      ∃ found, Progress.ofText (p.text ++ q.text) = ⟨found, .outside⟩ ∧
        found.length = (p.names ++ q.names).length +
          (p.identifiers ++ q.identifiers).countP (startMark ∈ ·)
    obtain astray | ⟨found, here, length⟩ := hp.counted
    · left
      rw [Progress.ofText, Progress.run_append]
      exact astray.run q.text
    · rw [Progress.ofText_append (by rw [here]), here]
      obtain astray | ⟨more, later, length'⟩ := hq.counted
      · left
        obtain ⟨name, mem, marked⟩ | inside := astray
        · exact .inl ⟨name, List.mem_append_right _ mem, marked⟩
        · exact .inr inside
      · right
        rw [later]
        refine ⟨found ++ more, rfl, ?_⟩
        rw [List.length_append, List.length_append, List.countP_append]
        omega

theorem classType (name : ClassName) {stop : Char} (h : isEndMark stop.toNat = true) :
    Scanned (.classType name stop) := by
  have read : Progress.ofText (Phrase.classType name stop).text = ⟨[name.text], .outside⟩ :=
    Progress.run_name name.not_isEndMark h []
  refine ⟨fun _ => read, ?_, .inr ⟨_, read, rfl⟩⟩
  intro found mem
  rw [List.mem_singleton.1 mem]
  exact name.boundMark_notMem

theorem typeVariable (id : Identifier) : Scanned (.typeVariable id) := by
  have skip : Progress.ofText (Phrase.typeVariable id).text =
      (Progress.run ⟨[], .outside⟩ id.val).run [';'.toNat] := by
    change Progress.run _ _ = _
    rw [Phrase.typeVariable, Progress.run_cons, Progress.step_of_ne (by decide),
      Progress.run_append]
  have unmarked (h : startMark ∉ id.val) :
      Progress.ofText (Phrase.typeVariable id).text = ⟨[], .outside⟩ := by
    rw [skip, Progress.run_outside h]
    rfl
  refine ⟨fun h => unmarked (h _ (List.mem_singleton_self _)),
    fun _ mem => absurd mem List.not_mem_nil, .inr ?_⟩
  by_cases h : startMark ∈ id.val
  · obtain ⟨part, run⟩ := id.run_of_mem h []
    refine ⟨[part], ?_, ?_⟩
    · have stop : isEndMark ';'.toNat = true := by decide
      rw [skip, run]
      exact Progress.step_endMark stop
    · simp [Phrase.typeVariable, h]
  · exact ⟨[], unmarked h, by simp [Phrase.typeVariable, h]⟩

theorem typeParameter (id : Identifier) : Scanned (.typeParameter id) := by
  have skip : Progress.ofText (Phrase.typeParameter id).text =
      (Progress.run ⟨[], .outside⟩ id.val).run [boundMark] := Progress.run_append ..
  have unmarked (h : startMark ∉ id.val) :
      Progress.ofText (Phrase.typeParameter id).text = ⟨[], .outside⟩ := by
    rw [skip, Progress.run_outside h]
    rfl
  refine ⟨fun h => unmarked (h _ (List.mem_singleton_self _)),
    fun _ mem => absurd mem List.not_mem_nil, ?_⟩
  by_cases h : startMark ∈ id.val
  · left
    obtain ⟨part, run⟩ := id.run_of_mem h []
    rw [skip, run]
    exact .inr ⟨part ++ [boundMark], rfl, by simp⟩
  · exact .inr ⟨[], unmarked h, by simp [Phrase.typeParameter, h]⟩

theorem of_derives {part : Part} {phrase : Phrase} (h : Derives part phrase) : Scanned phrase := by
  induction h with
  | nil | parameterless => exact empty
  | cons _ _ ihp ihq => exact ihp.append ihq
  | base mem => exact mark (ne_startMark_of_mem_baseTypes mem)
  | javaType _ ih | ofClassType _ ih | ofTypeVariable _ ih | exactly _ ih | result _ ih
  | ofField _ ih => exact ih
  | array _ ih | extending _ ih | extended _ ih | bound _ ih | throwsClass _ ih
  | throwsVariable _ ih => exact (mark (by decide)).append ih
  | any | void => exact mark (by decide)
  | typeVariable id => exact typeVariable id
  | plain name => exact classType name (by decide)
  | generic name _ _ ihp ihq =>
    have close := (mark (c := '>') (by decide)).append (mark (c := ';') (by decide))
    exact (classType name (by decide)).append (ihp.append (ihq.append close))
  | parameter id _ _ ihp ihq => exact (typeParameter id).append (ihp.append ihq)
  | classless id _ ih => exact (typeParameter id).append ih
  | parameters _ _ ihp ihq =>
    exact (mark (by decide)).append (ihp.append (ihq.append (mark (by decide))))
  | ofClass _ _ _ ihp ihq ihr => exact ihp.append (ihq.append ihr)
  | ofMethod _ _ _ _ ihp ihq ihr ihs =>
    exact ihp.append ((mark (by decide)).append (ihq.append ((mark (by decide)).append
      (ihr.append ihs))))

end Scanned

/-- The names found in a signature are those of its class types, from left to right, if no
identifier of a type variable or type parameter holds a start mark, and only then. -/
theorem names_eq_ok_iff_unmarked {part : Part} {phrase : Phrase} (h : Derives part phrase) :
    Descriptor.names phrase.text = .ok phrase.names ↔ phrase.Unmarked := by
  have scanned := Scanned.of_derives h
  rw [names_eq_ok_iff]
  refine ⟨fun read => ?_, scanned.read⟩
  obtain astray | ⟨found, found_eq, length⟩ := scanned.counted
  · rw [read] at astray
    obtain ⟨name, mem, marked⟩ | ⟨_, ⟨⟩, _⟩ := astray
    exact absurd marked (scanned.notMem name mem)
  · obtain ⟨rfl⟩ : phrase.names = found := by
      rw [read] at found_eq
      exact congrArg Progress.names found_eq
    have none : phrase.identifiers.countP (startMark ∈ ·) = 0 := by omega
    intro id mem
    simpa using List.countP_eq_zero.1 none id mem

/-- The signature of a method with a type parameter `T`, which throws an `E`. -/
def genericMethod : Phrase :=
  (.mark '<' ++ ((.typeParameter ⟨"T", by decide⟩ ++ (.classType ⟨[], ⟨"LA", by decide⟩⟩ ';' ++
      .empty)) ++ (.empty ++ .mark '>'))) ++
    (.mark '(' ++ ((.typeVariable ⟨"T", by decide⟩ ++ ((.mark '[' ++
      (.classType ⟨[⟨"p", by decide⟩], ⟨"M", by decide⟩⟩ '<' ++ ((.mark '+' ++
        .typeVariable ⟨"T", by decide⟩) ++ ((.mark '*' ++ .empty) ++ (.mark '>' ++ .mark ';'))))) ++
      .empty)) ++
    (.mark ')' ++ (.mark 'V' ++ ((.mark '^' ++ .classType ⟨[], ⟨"E", by decide⟩⟩ ';') ++ .empty)))))

theorem derives_genericMethod : Derives .ofMethod genericMethod :=
  .ofMethod (.parameters (.parameter _ (.ofClassType (.plain _)) .nil) .nil)
    (.cons (.javaType (.ofTypeVariable (.typeVariable _))) (.cons (.javaType (.array (.javaType
      (.ofClassType (.generic _ (.extending (.ofTypeVariable (.typeVariable _)))
        (.cons .any .nil)))))) .nil))
    .void (.cons (.throwsClass (.plain _)) .nil)

theorem names_eq_ok_iff_unmarked_genericMethod :
    genericMethod.text = "<T:LLA;>(TT;[Lp/M<+TT;*>;)V^LE;" ∧ genericMethod.Unmarked ∧
      Descriptor.names genericMethod.text = .ok [("LA" : Text), ("p/M" : Text), ("E" : Text)] := by
  have unmarked : genericMethod.Unmarked := by
    unfold Phrase.Unmarked
    decide
  exact ⟨by decide, unmarked, (names_eq_ok_iff_unmarked derives_genericMethod).2 unmarked⟩

/-- The signature of a class with a type parameter `L`. -/
def markedParameter : Phrase :=
  (.mark '<' ++ ((.typeParameter ⟨"L", by decide⟩ ++
      (.classType ⟨[⟨"com", by decide⟩, ⟨"x", by decide⟩], ⟨"Y", by decide⟩⟩ ';' ++ .empty)) ++
      (.empty ++ .mark '>'))) ++
    (.classType ⟨[⟨"java", by decide⟩, ⟨"lang", by decide⟩], ⟨"Object", by decide⟩⟩ ';' ++ .empty)

theorem derives_markedParameter : Derives .ofClass markedParameter :=
  .ofClass (.parameters (.parameter _ (.ofClassType (.plain _)) .nil) .nil) (.plain _) .nil

/-- The bound of the type parameter is lost. -/
theorem names_markedParameter_ne :
    Derives .ofClass markedParameter ∧
      markedParameter.text = "<L:Lcom/x/Y;>Ljava/lang/Object;" ∧
      markedParameter.names = [("com/x/Y" : Text), ("java/lang/Object" : Text)] ∧
      Descriptor.names markedParameter.text =
        .ok [(":Lcom/x/Y" : Text), ("java/lang/Object" : Text)] ∧
      Descriptor.names markedParameter.text ≠ .ok markedParameter.names := by
  have found : Descriptor.names markedParameter.text =
      .ok [(":Lcom/x/Y" : Text), ("java/lang/Object" : Text)] := by
    rw [names_eq_ok_iff]
    decide
  refine ⟨derives_markedParameter, by decide, by decide, found, ?_⟩
  rw [found]
  decide

end Signature

end ClassOrder
