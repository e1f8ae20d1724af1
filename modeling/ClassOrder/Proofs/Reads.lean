import ClassOrder.Proofs.Grammar

/-!
# The languages of readers

A reader `Reads` a language if it answers on a stream exactly when the stream starts with a string
of the language, and then takes that string and nothing else. There is one rule for each way to
build a reader, so the language of a reader is found along its definition.
-/

namespace ClassOrder

namespace Reader

variable {α β : Type}

/-- The reader takes the strings of a language off the front of a stream, and fails otherwise. -/
def Reads (reader : Reader α) (language : Language α) : Prop :=
  ∀ (a : α) (before after : ByteStream), reader before = .ok a after ↔
    ∃ bytes, language a bytes ∧ before.rest = bytes ++ after.rest ∧
      after.position = before.position + bytes.length

namespace Reads

variable {reader : Reader α} {language language' : Language α}

theorem congr (h : Reads reader language) (same : ∀ a bytes, language a bytes ↔ language' a bytes) :
    Reads reader language' := by
  intro a before after
  rw [h a before after]
  simp only [same]

theorem pure (a : α) : Reads (pure a) fun b bytes => b = a ∧ bytes = [] := by
  intro b before after
  constructor
  · intro h
    cases h
    exact ⟨[], ⟨rfl, rfl⟩, rfl, rfl⟩
  · rintro ⟨_, ⟨rfl, rfl⟩, rest, position⟩
    obtain ⟨start, bytes⟩ := before
    obtain ⟨start', bytes'⟩ := after
    simp only [List.nil_append, List.length_nil, Nat.add_zero] at rest position
    subst rest position
    rfl

theorem bind_eq_ok {reader : Reader α} {f : α → Reader β} {b : β} {before after : ByteStream} :
    (reader >>= f) before = .ok b after ↔
      ∃ a middle, reader before = .ok a middle ∧ f a middle = .ok b after := by
  change EStateM.bind reader f before = .ok b after ↔ _
  unfold EStateM.bind
  cases h : reader before with
  | ok a middle => simp
  | error e middle => simp

theorem bind {f : α → Reader β} {next : α → Language β} (h : Reads reader language)
    (hf : ∀ a, Reads (f a) (next a)) :
    Reads (reader >>= f) fun b bytes =>
      ∃ a first second, language a first ∧ next a b second ∧ bytes = first ++ second := by
  intro b before after
  rw [bind_eq_ok]
  constructor
  · rintro ⟨a, middle, read, read'⟩
    obtain ⟨first, hfirst, rest, position⟩ := (h a before middle).1 read
    obtain ⟨second, hsecond, rest', position'⟩ := (hf a b middle after).1 read'
    refine ⟨first ++ second, ⟨a, first, second, hfirst, hsecond, rfl⟩, ?_, ?_⟩
    · rw [rest, rest', List.append_assoc]
    · rw [position', position, List.length_append, Nat.add_assoc]
  · rintro ⟨_, ⟨a, first, second, hfirst, hsecond, rfl⟩, rest, position⟩
    refine ⟨a, ⟨before.position + first.length, second ++ after.rest⟩, ?_, ?_⟩
    · exact (h a before _).2 ⟨first, hfirst, by rw [rest, List.append_assoc], rfl⟩
    · refine (hf a b _ after).2 ⟨second, hsecond, rfl, ?_⟩
      rw [position, List.length_append, Nat.add_assoc]

theorem bind_pure (h : Reads reader language) (f : α → β) :
    Reads (reader >>= fun a => Pure.pure (f a)) fun b bytes => ∃ a, language a bytes ∧ b = f a := by
  refine (h.bind fun a => pure (f a)).congr fun b bytes => ?_
  constructor
  · rintro ⟨a, first, _, hfirst, ⟨rfl, rfl⟩, rfl⟩
    exact ⟨a, by rwa [List.append_nil], rfl⟩
  · rintro ⟨a, h, rfl⟩
    exact ⟨a, bytes, [], h, ⟨rfl, rfl⟩, (List.append_nil bytes).symm⟩

theorem map (h : Reads reader language) (f : α → β) :
    Reads (f <$> reader) fun b bytes => ∃ a, language a bytes ∧ b = f a := by
  rw [map_eq_pure_bind]
  exact h.bind_pure f

theorem never (fails : ∀ a before after, reader before ≠ .ok a after) :
    Reads reader fun _ _ => False := by
  intro a before after
  simp [fails a before after]

theorem ofExcept (result : Except Malformed α) :
    Reads (ofExcept result) fun a bytes => result = .ok a ∧ bytes = [] := by
  cases result with
  | ok a => exact (pure a).congr fun b bytes => by rw [Except.ok.injEq, eq_comm]
  | error e => exact (never fun _ _ _ h => by cases h).congr fun a bytes => by simp

theorem check (h : Reads reader language) (f : α → Except Malformed β) :
    Reads (reader >>= fun a => Reader.ofExcept (f a)) fun b bytes =>
      ∃ a, language a bytes ∧ f a = .ok b := by
  refine (h.bind fun a => ofExcept (f a)).congr fun b bytes => ?_
  constructor
  · rintro ⟨a, first, _, hfirst, ⟨ok, rfl⟩, rfl⟩
    exact ⟨a, by rwa [List.append_nil], ok⟩
  · rintro ⟨a, h, ok⟩
    exact ⟨a, bytes, [], h, ⟨ok, rfl⟩, (List.append_nil bytes).symm⟩

theorem ofExcept_bind (result : Except Malformed α) {f : α → Reader β} {next : α → Language β}
    (hf : ∀ a, Reads (f a) (next a)) :
    Reads (Reader.ofExcept result >>= f) fun b bytes => ∃ a, result = .ok a ∧ next a b bytes := by
  refine ((ofExcept result).bind hf).congr fun b bytes => ?_
  constructor
  · rintro ⟨a, _, second, ⟨ok, rfl⟩, hsecond, rfl⟩
    exact ⟨a, ok, hsecond⟩
  · rintro ⟨a, ok, h⟩
    exact ⟨a, [], bytes, ⟨ok, rfl⟩, h, rfl⟩

theorem take (size : Nat) :
    Reads (take size) fun taken bytes => bytes = taken ∧ bytes.length = size := by
  rintro taken ⟨start, all⟩ ⟨start', rest⟩
  simp only [Reader.take]
  split_ifs with short
  · refine iff_of_false (fun h => by cases h) ?_
    rintro ⟨bytes, ⟨rfl, length⟩, rfl, -⟩
    rw [← length, List.take_left] at short
    omega
  · have length : (all.take size).length = size := by
      have := List.length_take_le size all
      omega
    constructor
    · intro h
      cases h
      exact ⟨_, ⟨rfl, length⟩, (List.take_append_drop size all).symm, by rw [length]⟩
    · rintro ⟨_, ⟨rfl, rfl⟩, rfl, rfl⟩
      rw [List.take_left, List.drop_left]

theorem skip (size : Nat) : Reads (skip size) fun _ bytes => bytes.length = size := by
  refine ((take size).bind_pure fun _ => ()).congr fun _ bytes => ?_
  constructor
  · rintro ⟨_, ⟨-, length⟩, -⟩
    exact length
  · intro length
    exact ⟨bytes, ⟨rfl, length⟩, rfl⟩

theorem times (h : Reads reader language) (count : Nat) :
    Reads (times count reader) fun answers bytes =>
      ∃ rows, List.Forall₂ language answers rows ∧ bytes = rows.flatten ∧
        answers.length = count := by
  induction count with
  | zero =>
    refine (pure []).congr fun answers bytes => ?_
    constructor
    · rintro ⟨rfl, rfl⟩
      exact ⟨[], .nil, rfl, rfl⟩
    · rintro ⟨rows, each, rfl, length⟩
      obtain rfl := List.length_eq_zero_iff.1 length
      cases each
      exact ⟨rfl, rfl⟩
  | succ count ih =>
    rw [times_succ]
    refine (h.bind fun a => ih.bind fun as => pure (a :: as)).congr fun answers bytes => ?_
    constructor
    · rintro ⟨a, first, _, hfirst, ⟨as, _, _, ⟨rows, each, rfl, rfl⟩, ⟨rfl, rfl⟩, rfl⟩, rfl⟩
      exact ⟨first :: rows, .cons hfirst each, by simp, rfl⟩
    · rintro ⟨_, each, rfl, length⟩
      cases each with
      | nil => simp at length
      | @cons a first as rows hfirst each =>
        refine ⟨a, first, rows.flatten, hfirst, ⟨as, rows.flatten, [], ?_, ⟨rfl, rfl⟩, ?_⟩, rfl⟩
        · exact ⟨rows, each, rfl, by simpa using length⟩
        · rw [List.append_nil]

end Reads

end Reader

end ClassOrder
