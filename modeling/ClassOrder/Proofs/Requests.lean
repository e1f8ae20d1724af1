import ClassOrder.ClassFile.Request
import ClassOrder.Proofs.Answers
import Mathlib.Data.List.Induction

/-!
# What requests read

A ledger is a stream with all that was read from it, and a recorder is a reader that keeps a ledger.
The books add up (`Accounts`): what the full reads got is what the file has up to the position, and
after a read that came out short nothing more is there. A read keeps it so, whether it is full or
short (`Accounts.full_read`, `Accounts.short_read`), thus every recorder does that is built from
reads (`Records`), and so does a run of requests (`Request.runAll_accounts`).
-/

namespace ClassOrder

/-- A read: where it began, how many bytes it asked for, and those that there were. -/
structure Read where
  position : Nat
  size : Nat
  got : List UInt8
  deriving DecidableEq, Repr

/-- Fewer bytes were there than the read asked for. -/
def Read.isShort (read : Read) : Bool := read.got.length < read.size

/-- A stream with the reads from it, in order. -/
structure Ledger where
  stream : ByteStream
  reads : List Read
  deriving DecidableEq, Repr

namespace Ledger

/-- Nothing was read yet. -/
def ofBytes (bytes : List UInt8) : Ledger := ⟨.ofBytes bytes, []⟩

/-- Whether some read was short. -/
def isDry (ledger : Ledger) : Bool := ledger.reads.any Read.isShort

/-- The bytes of the full reads. -/
def taken (ledger : Ledger) : List UInt8 :=
  (ledger.reads.filter (!·.isShort)).flatMap Read.got

/-- The read of this many bytes that comes next. -/
def next (size : Nat) (ledger : Ledger) : Read :=
  ⟨ledger.stream.position, size, ledger.stream.rest.take size⟩

/-- Notes the next read. -/
def note (size : Nat) (ledger : Ledger) (stream : ByteStream) : Ledger :=
  ⟨stream, ledger.reads ++ [ledger.next size]⟩

theorem isDry_of_mem {ledger : Ledger} {read : Read} (mem : read ∈ ledger.reads)
    (short : read.isShort) : ledger.isDry :=
  List.any_eq_true.2 ⟨read, mem, short⟩

theorem isShort_next (size : Nat) (ledger : Ledger) :
    (ledger.next size).isShort = decide (ledger.stream.rest.length < size) := by
  rw [Read.isShort, decide_eq_decide]
  change (ledger.stream.rest.take size).length < size ↔ _
  rw [List.length_take]
  omega

theorem isDry_note (size : Nat) (ledger : Ledger) (stream : ByteStream) :
    (ledger.note size stream).isDry = (ledger.isDry || ledger.stream.rest.length < size) := by
  simp [isDry, note, isShort_next]

theorem taken_note (size : Nat) (ledger : Ledger) (stream : ByteStream) :
    (ledger.note size stream).taken =
      ledger.taken ++ if ledger.stream.rest.length < size then []
        else ledger.stream.rest.take size := by
  rw [taken, note, List.filter_append, List.flatMap_append, ← taken, List.filter_singleton,
    isShort_next]
  by_cases short : ledger.stream.rest.length < size
  · simp [short]
  · simp [short, next]

end Ledger

/-! ## Recorders -/

/-- An outcome with what it leaves. -/
def settled {σ α : Type} : EStateM.Result Malformed σ α → Except Malformed α × σ
  | .ok a after => (.ok a, after)
  | .error cause after => (.error cause, after)

/-- A reader that keeps a ledger. -/
abbrev Recorder := EStateM Malformed Ledger

namespace Recorder

/-- Notes what the reader answers, or what was left when it fails. -/
def take (size : Nat) : Recorder (List UInt8) := fun ledger =>
  let read := Read.mk ledger.stream.position size
  match Reader.take size ledger.stream with
  | .ok taken stream => .ok taken ⟨stream, ledger.reads ++ [read taken]⟩
  | .error cause stream => .error cause ⟨stream, ledger.reads ++ [read ledger.stream.rest]⟩

theorem take_of_short {size : Nat} {ledger : Ledger}
    (short : ledger.stream.rest.length < size) :
    take size ledger = .error
      (.endOfStream ledger.stream.position size (ledger.stream.rest.take size).length)
      (ledger.note size ⟨ledger.stream.position, []⟩) := by
  have all : ledger.stream.rest.take size = ledger.stream.rest :=
    List.take_of_length_le (Nat.le_of_lt short)
  simp only [take, Reader.take, all, if_pos short, Ledger.note, Ledger.next]

theorem take_of_full {size : Nat} {ledger : Ledger}
    (full : ¬ ledger.stream.rest.length < size) :
    take size ledger = .ok (ledger.stream.rest.take size)
      (ledger.note size ⟨ledger.stream.position + size, ledger.stream.rest.drop size⟩) := by
  have enough : ¬ (ledger.stream.rest.take size).length < size := by
    rw [List.length_take]
    omega
  simp only [take, Reader.take, if_neg enough, Ledger.note, Ledger.next]

def skip (size : Nat) : Recorder Unit := do
  let _ ← take size

def u1 : Recorder Nat := Reader.bigEndian <$> take 1

def u2 : Recorder Nat := Reader.bigEndian <$> take 2

def u4 : Recorder Nat := Reader.bigEndian <$> take 4

/-- The outcome of decoding some bytes. -/
def decode (bytes : List UInt8) : Recorder Text :=
  match ModifiedUtf8.decode bytes with
  | .ok text => pure text
  | .error fault => throw (.encoding fault)

def text : Recorder Text := do
  let size ← u2
  let bytes ← take size
  decode bytes

end Recorder

namespace Request

def recorder : Request → Recorder Reply
  | u1 => .number <$> Recorder.u1
  | u2 => .number <$> Recorder.u2
  | u4 => .number <$> Recorder.u4
  | text => .text <$> Recorder.text
  | take size => .bytes <$> Recorder.take size
  | skip size => (fun _ => .skipped) <$> Recorder.skip size

/-- The outcome of a request and the ledger that it leaves. -/
def record (request : Request) (ledger : Ledger) : Except RequestError Reply × Ledger :=
  if request.isTooLarge then (.error .tooLarge, ledger)
  else (settled (request.recorder ledger)).map (·.mapError .malformed) id

end Request

/-- The ledger after some requests to the stream of a file. -/
def Ledger.after (bytes : List UInt8) (requests : List Request) : Ledger :=
  requests.foldl (fun ledger request => (request.record ledger).2) (.ofBytes bytes)

theorem Ledger.after_append (bytes : List UInt8) (requests : List Request) (request : Request) :
    after bytes (requests ++ [request]) = (request.record (after bytes requests)).2 := by
  rw [after, List.foldl_append, ← after, List.foldl_cons, List.foldl_nil]

/-! ## Accounts -/

/-- The books of the reads from a file add up. -/
structure Accounts (bytes : List UInt8) (ledger : Ledger) : Prop where
  le_length : ledger.stream.position ≤ bytes.length
  taken : ledger.taken = bytes.take ledger.stream.position
  rest : ledger.stream.rest = if ledger.isDry then [] else bytes.drop ledger.stream.position
  /-- The position never goes back, and after a short read it stays and nothing is there. -/
  inOrder : ledger.reads.Pairwise fun read later =>
    read.position ≤ later.position ∧
      (read.isShort → later.position = read.position ∧ later.got = [])
  behind : ∀ read ∈ ledger.reads,
    read.position ≤ ledger.stream.position ∧
      (read.isShort → ledger.stream.position = read.position)

namespace Accounts

variable {bytes : List UInt8} {ledger : Ledger}

theorem ofBytes (bytes : List UInt8) : Accounts bytes (.ofBytes bytes) where
  le_length := Nat.zero_le _
  taken := rfl
  rest := rfl
  inOrder := .nil
  behind := nofun

theorem rest_of_isDry (h : Accounts bytes ledger) (dry : ledger.isDry) :
    ledger.stream.rest = [] := by
  rw [h.rest, if_pos dry]

theorem size_eq_zero (h : Accounts bytes ledger) (dry : ledger.isDry) {size : Nat}
    (full : ¬ ledger.stream.rest.length < size) : size = 0 := by
  rw [h.rest_of_isDry dry] at full
  simpa using full

/-- Up to the first short read, no byte is lost. -/
theorem position_add_length (h : Accounts bytes ledger) (full : ledger.isDry = false) :
    ledger.stream.position + ledger.stream.rest.length = bytes.length := by
  have le := h.le_length
  rw [h.rest, full, if_neg Bool.false_ne_true, List.length_drop]
  omega

/-- The next read begins at the position, and after a short read it gets nothing. -/
theorem inOrder_note (h : Accounts bytes ledger) (size : Nat) (stream : ByteStream) :
    (ledger.note size stream).reads.Pairwise fun read later =>
      read.position ≤ later.position ∧
        (read.isShort → later.position = read.position ∧ later.got = []) := by
  refine List.pairwise_append.2 ⟨h.inOrder, List.pairwise_singleton .., ?_⟩
  intro read mem later here
  obtain rfl := List.mem_singleton.1 here
  obtain ⟨le, stays⟩ := h.behind read mem
  refine ⟨le, fun short => ⟨stays short, ?_⟩⟩
  rw [Ledger.next, h.rest_of_isDry (Ledger.isDry_of_mem mem short), List.take_nil]

theorem full_read (h : Accounts bytes ledger) {size : Nat}
    (full : ¬ ledger.stream.rest.length < size) :
    Accounts bytes (ledger.note size
      ⟨ledger.stream.position + size, ledger.stream.rest.drop size⟩) := by
  have got : ledger.stream.rest.take size = (bytes.drop ledger.stream.position).take size ∧
      ledger.stream.position + size ≤ bytes.length := by
    have le := h.le_length
    cases dry : ledger.isDry with
    | true =>
      obtain rfl := h.size_eq_zero dry full
      exact ⟨rfl, le⟩
    | false =>
      have sum := h.position_add_length dry
      refine ⟨?_, by omega⟩
      rw [h.rest, dry, if_neg Bool.false_ne_true]
  refine ⟨got.2, ?_, ?_, h.inOrder_note size _, ?_⟩
  · rw [Ledger.taken_note, if_neg full, h.taken, got.1]
    exact List.take_add.symm
  · rw [Ledger.isDry_note, decide_eq_false full, Bool.or_false, Ledger.note, h.rest]
    split_ifs
    · exact List.drop_nil
    · exact List.drop_drop
  · intro read mem
    rcases List.mem_append.1 mem with mem | here
    · obtain ⟨le, stays⟩ := h.behind read mem
      refine ⟨Nat.le_add_right_of_le le, fun short => ?_⟩
      obtain rfl := h.size_eq_zero (Ledger.isDry_of_mem mem short) full
      exact stays short
    · obtain rfl := List.mem_singleton.1 here
      refine ⟨Nat.le_add_right _ _, fun short => ?_⟩
      rw [Ledger.isShort_next] at short
      exact absurd (of_decide_eq_true short) full

theorem short_read (h : Accounts bytes ledger) {size : Nat}
    (short : ledger.stream.rest.length < size) :
    Accounts bytes (ledger.note size ⟨ledger.stream.position, []⟩) where
  le_length := h.le_length
  taken := by
    rw [Ledger.taken_note, if_pos short, List.append_nil, h.taken]
    rfl
  rest := by
    rw [Ledger.isDry_note, decide_eq_true short, Bool.or_true, if_pos rfl]
    rfl
  inOrder := h.inOrder_note size _
  behind := by
    intro read mem
    rcases List.mem_append.1 mem with mem | here
    · exact h.behind read mem
    · obtain rfl := List.mem_singleton.1 here
      exact ⟨Nat.le_refl _, fun _ => rfl⟩

end Accounts

/-! ## What recorders do -/

section Recorders

variable {α β : Type}

theorem settled_bind {σ : Type} (x : EStateM Malformed σ α) (f : α → EStateM Malformed σ β)
    (state : σ) : settled ((x >>= f) state) =
      match settled (x state) with
      | (.ok a, middle) => settled (f a middle)
      | (.error cause, middle) => (.error cause, middle) := by
  change settled (EStateM.bind x f state) = _
  unfold EStateM.bind
  cases x state <;> rfl

/-- More reads, all of them full. -/
def FullAfter (before after : List Read) : Prop :=
  ∃ reads, after = before ++ reads ∧ ∀ read ∈ reads, read.isShort = false

/-- How a computation ends by its reads: for lack of bytes if the last one is short, and that one
alone. -/
inductive Ended (before after : List Read) : Except Malformed α → Prop
  | answered {a : α} (full : FullAfter before after) : Ended before after (.ok a)
  | undecoded {fault : ModifiedUtf8.Fault} (full : FullAfter before after) :
      Ended before after (.error (.encoding fault))
  | short {middle : List Read} {read : Read} (full : FullAfter before middle)
      (short : read.isShort) (noted : after = middle ++ [read]) :
      Ended before after (.error (.endOfStream read.position read.size read.got.length))

/-- The recorder does what the reader does, and its books are right. -/
structure Records (recorder : Recorder α) (reader : Reader α) : Prop where
  follows : ∀ ledger, (settled (recorder ledger)).map id Ledger.stream =
    settled (reader ledger.stream)
  accounts : ∀ {bytes ledger}, Accounts bytes ledger →
    Accounts bytes (settled (recorder ledger)).2
  ended : ∀ ledger, Ended ledger.reads (settled (recorder ledger)).2.reads
    (settled (recorder ledger)).1
  le_position : ∀ ledger, ledger.stream.position ≤
    (settled (recorder ledger)).2.stream.position

theorem FullAfter.refl (reads : List Read) : FullAfter reads reads :=
  ⟨[], (List.append_nil reads).symm, nofun⟩

theorem FullAfter.trans {first second third : List Read} (h : FullAfter first second)
    (h' : FullAfter second third) : FullAfter first third := by
  obtain ⟨reads, rfl, full⟩ := h
  obtain ⟨more, rfl, full'⟩ := h'
  exact ⟨reads ++ more, List.append_assoc .., List.forall_mem_append.2 ⟨full, full'⟩⟩

theorem Ended.of_full {before middle after : List Read} {result : Except Malformed α}
    (full : FullAfter before middle) (h : Ended middle after result) :
    Ended before after result := by
  cases h with
  | answered more => exact .answered (full.trans more)
  | undecoded more => exact .undecoded (full.trans more)
  | short more short noted => exact .short (full.trans more) short noted

theorem Ended.full {before after : List Read} {a : α}
    (h : Ended before after (.ok a : Except Malformed α)) : FullAfter before after := by
  cases h with
  | answered full => exact full

theorem Ended.error {before after : List Read} {cause : Malformed}
    (h : Ended before after (.error cause : Except Malformed α)) :
    Ended before after (.error cause : Except Malformed β) := by
  cases h with
  | undecoded full => exact .undecoded full
  | short full short noted => exact .short full short noted

namespace Records

variable {recorder : Recorder α} {reader : Reader α}

theorem pure (a : α) : Records (pure a) (pure a) where
  follows _ := rfl
  accounts h := h
  ended _ := .answered (.refl _)
  le_position _ := Nat.le_refl _

theorem undecoded (fault : ModifiedUtf8.Fault) :
    Records (throw (.encoding fault) : Recorder α) (throw (.encoding fault)) where
  follows _ := rfl
  accounts h := h
  ended _ := .undecoded (.refl _)
  le_position _ := Nat.le_refl _

theorem take (size : Nat) : Records (Recorder.take size) (Reader.take size) where
  follows ledger := by
    rw [Recorder.take]
    cases Reader.take size ledger.stream <;> rfl
  accounts {bytes ledger} h := by
    by_cases short : ledger.stream.rest.length < size
    · rw [Recorder.take_of_short short]
      exact h.short_read short
    · rw [Recorder.take_of_full short]
      exact h.full_read short
  ended ledger := by
    by_cases short : ledger.stream.rest.length < size
    · rw [Recorder.take_of_short short]
      refine .short (.refl _) ?_ rfl
      rw [Ledger.isShort_next, decide_eq_true short]
    · rw [Recorder.take_of_full short]
      refine .answered ⟨[ledger.next size], rfl, fun read mem => ?_⟩
      obtain rfl := List.mem_singleton.1 mem
      rw [Ledger.isShort_next, decide_eq_false short]
  le_position ledger := by
    by_cases short : ledger.stream.rest.length < size
    · rw [Recorder.take_of_short short]
      exact Nat.le_refl _
    · rw [Recorder.take_of_full short]
      exact Nat.le_add_right _ _

theorem bind {recorders : α → Recorder β} {readers : α → Reader β} (h : Records recorder reader)
    (hf : ∀ a, Records (recorders a) (readers a)) :
    Records (recorder >>= recorders) (reader >>= readers) where
  follows ledger := by
    rw [settled_bind, settled_bind, ← h.follows]
    obtain ⟨cause | a, middle⟩ := settled (recorder ledger)
    · rfl
    · exact (hf a).follows middle
  accounts {bytes ledger} books := by
    have first := h.accounts books
    rw [settled_bind]
    generalize settled (recorder ledger) = result at first ⊢
    obtain ⟨cause | a, middle⟩ := result
    · exact first
    · exact (hf a).accounts first
  ended ledger := by
    have first := h.ended ledger
    rw [settled_bind]
    generalize settled (recorder ledger) = result at first ⊢
    obtain ⟨cause | a, middle⟩ := result
    · exact first.error
    · exact ((hf a).ended middle).of_full first.full
  le_position ledger := by
    have first := h.le_position ledger
    rw [settled_bind]
    generalize settled (recorder ledger) = result at first ⊢
    obtain ⟨cause | a, middle⟩ := result
    · exact first
    · exact Nat.le_trans first ((hf a).le_position middle)

theorem map (h : Records recorder reader) (f : α → β) : Records (f <$> recorder) (f <$> reader) := by
  rw [map_eq_pure_bind, map_eq_pure_bind]
  exact h.bind fun a => pure (f a)

theorem text : Records Recorder.text Reader.text := by
  refine ((take 2).map Reader.bigEndian).bind fun size => (take size).bind fun bytes => ?_
  rw [Recorder.decode]
  cases ModifiedUtf8.decode bytes with
  | ok text => exact pure text
  | error fault => exact undecoded fault

theorem request (request : Request) : Records request.recorder request.reader := by
  cases request with
  | u1 => exact ((take 1).map _).map _
  | u2 => exact ((take 2).map _).map _
  | u4 => exact ((take 4).map _).map _
  | text => exact text.map _
  | take size => exact (take size).map _
  | skip size => exact ((take size).bind fun _ => pure ()).map _

end Records

end Recorders

/-! ## Requests -/

theorem Accounts.record {bytes : List UInt8} {ledger : Ledger} (h : Accounts bytes ledger)
    (request : Request) : Accounts bytes (request.record ledger).2 := by
  rw [Request.record]
  split_ifs
  · exact h
  · exact (Records.request request).accounts h

theorem Accounts.after (bytes : List UInt8) (requests : List Request) :
    Accounts bytes (.after bytes requests) := by
  induction requests using List.reverseRecOn with
  | nil => exact .ofBytes bytes
  | append_singleton requests request ih =>
    rw [Ledger.after_append]
    exact ih.record request

namespace Request

variable {bytes : List UInt8} {request : Request} {ledger : Ledger} {stream : ByteStream}

theorem run_eq (request : Request) (stream : ByteStream) :
    request.run stream = if request.isTooLarge then (.error .tooLarge, stream)
      else (settled (request.reader stream)).map (·.mapError .malformed) id := by
  rw [run]
  cases request.reader stream <;> rfl

theorem record_follows (request : Request) (ledger : Ledger) :
    (request.record ledger).map id Ledger.stream = request.run ledger.stream := by
  rw [run_eq, record, ← (Records.request request).follows]
  split_ifs <;> rfl

theorem le_position_record (request : Request) (ledger : Ledger) :
    ledger.stream.position ≤ (request.record ledger).2.stream.position := by
  rw [record]
  split_ifs
  · exact Nat.le_refl _
  · exact (Records.request request).le_position ledger

theorem le_position_run (request : Request) (stream : ByteStream) :
    stream.position ≤ (request.run stream).2.position := by
  have le := le_position_record request ⟨stream, []⟩
  rw [← record_follows request ⟨stream, []⟩]
  exact le

/-- How many bytes a request asks for first. -/
def firstSize : Request → Nat
  | u1 => 1
  | u2 | text => 2
  | u4 => 4
  | take size | skip size => size

/-- Where nothing is left, a request for bytes fails, and any other is answered. -/
theorem run_of_rest_eq_nil (small : request.isTooLarge = false) (position : Nat) :
    (request.firstSize = 0 → ∃ reply, request.run ⟨position, []⟩ = (.ok reply, ⟨position, []⟩)) ∧
    (request.firstSize ≠ 0 → request.run ⟨position, []⟩ =
      (.error (.malformed (.endOfStream position request.firstSize 0)), ⟨position, []⟩)) := by
  have none : ∀ size, size ≠ 0 → Reader.take size ⟨position, []⟩ =
      .error (.endOfStream position size 0) ⟨position, []⟩ := by
    intro size some
    simp [Reader.take, Nat.pos_of_ne_zero some]
  rw [run_eq, small, if_neg Bool.false_ne_true]
  cases request with
  | u1 => exact ⟨nofun, fun _ => rfl⟩
  | u2 => exact ⟨nofun, fun _ => rfl⟩
  | u4 => exact ⟨nofun, fun _ => rfl⟩
  | text => exact ⟨nofun, fun _ => rfl⟩
  | take size =>
    refine ⟨fun zero => ?_, fun some => ?_⟩
    · obtain rfl : size = 0 := zero
      exact ⟨_, rfl⟩
    · change (settled (EStateM.map Reply.bytes (Reader.take size) _)).map _ _ = _
      rw [EStateM.map, none size some]
      rfl
  | skip size =>
    refine ⟨fun zero => ?_, fun some => ?_⟩
    · obtain rfl : size = 0 := zero
      exact ⟨_, rfl⟩
    · change (settled (EStateM.map _ (EStateM.bind (Reader.take size) _) _)).map _ _ = _
      rw [EStateM.map, EStateM.bind, none size some]
      rfl

/-! ## Runs -/

theorem runAll_append (request : Request) (requests : List Request) (ledger : Ledger) :
    runAll ledger.stream (requests ++ [request]) = runAll ledger.stream requests ++
      [request.run
        (requests.foldl (fun ledger request => (request.record ledger).2) ledger).stream] := by
  induction requests generalizing ledger with
  | nil => rfl
  | cons first requests ih =>
    rw [List.cons_append, runAll, runAll, ← record_follows, List.foldl_cons, List.cons_append]
    exact congrArg _ (ih _)

theorem le_position_runAll {outcome : Except RequestError Reply × ByteStream}
    {requests : List Request} (mem : outcome ∈ runAll stream requests) :
    stream.position ≤ outcome.2.position := by
  induction requests generalizing stream with
  | nil => cases mem
  | cons request requests ih =>
    rcases List.mem_cons.1 mem with rfl | later
    · exact le_position_run request stream
    · exact Nat.le_trans (le_position_run request stream) (ih later)

theorem pairwise_position_runAll (stream : ByteStream) (requests : List Request) :
    ((runAll stream requests).map (·.2.position)).Pairwise (· ≤ ·) := by
  induction requests generalizing stream with
  | nil => exact .nil
  | cons request requests ih =>
    rw [runAll, List.map_cons, List.pairwise_cons]
    refine ⟨fun position mem => ?_, ih _⟩
    obtain ⟨outcome, later, rfl⟩ := List.mem_map.1 mem
    exact le_position_runAll later

/-- What a request does to a ledger. -/
structure Served (request : Request) (before : Ledger) (outcome : Except RequestError Reply)
    (after : Ledger) : Prop where
  le_position : before.stream.position ≤ after.stream.position
  /-- A number of bytes that is no size is refused before anything is read. -/
  refused : request.isTooLarge = true → outcome = .error .tooLarge ∧ after = before
  /-- Otherwise the request fails for lack of bytes exactly if its last read is short. -/
  ended : request.isTooLarge = false → ∃ result : Except Malformed Reply,
    outcome = result.mapError .malformed ∧ Ended before.reads after.reads result
  /-- After a short read, whoever asks for bytes gets none, and whoever asks for none is answered. -/
  stopped : request.isTooLarge = false → ∀ read ∈ before.reads, read.isShort →
    after.stream = ⟨read.position, []⟩ ∧
      (request.firstSize = 0 → ∃ reply, outcome = .ok reply) ∧
      (request.firstSize ≠ 0 →
        outcome = .error (.malformed (.endOfStream read.position request.firstSize 0)))

theorem served_record (h : Accounts bytes ledger) (request : Request) :
    Served request ledger (request.record ledger).1 (request.record ledger).2 where
  le_position := le_position_record request ledger
  refused large := by
    rw [record, if_pos large]
    exact ⟨rfl, rfl⟩
  ended small := by
    rw [record, small, if_neg Bool.false_ne_true]
    exact ⟨_, rfl, (Records.request request).ended ledger⟩
  stopped small read mem short := by
    have here : ledger.stream = ⟨read.position, []⟩ := by
      rw [← h.rest_of_isDry (Ledger.isDry_of_mem mem short), ← (h.behind read mem).2 short]
    obtain ⟨none, some⟩ := run_of_rest_eq_nil small read.position
    have follows := record_follows request ledger
    rw [here] at follows
    by_cases zero : request.firstSize = 0
    · obtain ⟨reply, answered⟩ := none zero
      rw [answered] at follows
      exact ⟨congrArg Prod.snd follows, fun _ => ⟨reply, congrArg Prod.fst follows⟩,
        fun ne => absurd zero ne⟩
    · rw [some zero] at follows
      exact ⟨congrArg Prod.snd follows, fun eq => absurd eq zero,
        fun _ => congrArg Prod.fst follows⟩

/-- Whatever is asked of the stream of a file, the position never goes back, and the books add up:
no byte is lost up to the first short read. Every outcome is that of a request served from the
ledger. -/
theorem runAll_accounts (bytes : List UInt8) (requests : List Request) :
    ((runAll (.ofBytes bytes) requests).map (·.2.position)).Pairwise (· ≤ ·) ∧
    Accounts bytes (.after bytes requests) ∧
    ((Ledger.after bytes requests).isDry = false →
      (Ledger.after bytes requests).stream.position +
        (Ledger.after bytes requests).stream.rest.length = bytes.length) ∧
    ∀ request, ∃ outcome,
      runAll (.ofBytes bytes) (requests ++ [request]) = runAll (.ofBytes bytes) requests ++
        [(outcome, (Ledger.after bytes (requests ++ [request])).stream)] ∧
      Served request (.after bytes requests) outcome (.after bytes (requests ++ [request])) := by
  have accounts := Accounts.after bytes requests
  refine ⟨pairwise_position_runAll _ _, accounts, accounts.position_add_length, fun request => ?_⟩
  refine ⟨(request.record (.after bytes requests)).1, ?_, ?_⟩
  · rw [Ledger.after_append]
    have appended := runAll_append request requests (.ofBytes bytes)
    rw [← Ledger.after, ← record_follows] at appended
    exact appended
  · rw [Ledger.after_append]
    exact served_record accounts request

/-- A text that is cut short, then a request for one byte or for none. -/
theorem runAll_accounts_shortText :
    (⟨2, 5, [97]⟩ : Read) ∈ (Ledger.after [0, 5, 97] [text]).reads ∧
      (⟨2, 5, [97]⟩ : Read).isShort ∧
      (∃ next, runAll (.ofBytes [0, 5, 97]) [text, u1] = runAll (.ofBytes [0, 5, 97]) [text] ++
        [(.error (.malformed (.endOfStream 2 1 0)), next)]) ∧
      ∃ reply next, runAll (.ofBytes [0, 5, 97]) [text, take 0] =
        runAll (.ofBytes [0, 5, 97]) [text] ++ [(.ok reply, next)] := by
  have mem : (⟨2, 5, [97]⟩ : Read) ∈ (Ledger.after [0, 5, 97] [text]).reads := by decide +kernel
  obtain ⟨-, -, -, served⟩ := runAll_accounts [0, 5, 97] [text]
  obtain ⟨_, whole, one⟩ := served u1
  obtain ⟨_, whole', none⟩ := served (take 0)
  obtain ⟨-, -, failed⟩ := one.stopped rfl _ mem rfl
  obtain ⟨-, answered, -⟩ := none.stopped rfl _ mem rfl
  obtain ⟨reply, answered⟩ := answered rfl
  rw [failed Nat.one_ne_zero] at whole
  rw [answered] at whole'
  exact ⟨mem, rfl, ⟨_, whole⟩, reply, _, whole'⟩

/-- After a short read, a request for a number of bytes that is no size does not fail for lack of
bytes. -/
theorem not_endOfStream_after_short : ¬ ∀ (bytes : List UInt8) (requests : List Request)
    (request : Request) (read : Read), read ∈ (Ledger.after bytes requests).reads →
      read.isShort → request.firstSize ≠ 0 →
      (request.run (Ledger.after bytes requests).stream).1 =
        .error (.malformed (.endOfStream read.position request.firstSize 0)) := by
  intro h
  have failed := h [] [u1] (take (2 ^ 63)) ⟨0, 1, []⟩ (by decide +kernel) rfl (by decide)
  have refused : ((take (2 ^ 63)).run (Ledger.after [] [u1]).stream).1 = .error .tooLarge := by
    decide +kernel
  rw [refused] at failed
  cases failed

end Request

end ClassOrder
