import ClassOrder.Proofs.Layout

/-!
# Class files that are cut short

An exact reader takes some bytes off the front of a stream, answers the same whatever is behind
them, and fails for lack of bytes wherever the stream ends before the last of them. Exactness is
kept by every way to build a reader, so reading a class file is exact (`ClassFile.exact_read`).
-/

namespace ClassOrder

namespace Reader

variable {α β : Type}

/-- The reading failed for lack of bytes, in a stream that ends at a position. -/
def RunsOut (result : EStateM.Result Malformed ByteStream α) (finish : Nat) : Prop :=
  ∃ position expected got after, result = .error (.endOfStream position expected got) after ∧
    position + got = finish ∧ got < expected

/-- The reader takes these bytes from a position on: all of them, or none if some are missing. -/
structure Takes (reader : Reader α) (start : Nat) (bytes : List UInt8) (a : α) : Prop where
  whole : ∀ rest, reader ⟨start, bytes ++ rest⟩ = .ok a ⟨start + bytes.length, rest⟩
  short : ∀ k < bytes.length, RunsOut (reader ⟨start, bytes.take k⟩) (start + k)

/-- Whatever the reader answers, it answers to some bytes at the front of the stream. -/
def Exact (reader : Reader α) : Prop :=
  ∀ (a : α) (before after : ByteStream), reader before = .ok a after →
    ∃ bytes, Takes reader before.position bytes a ∧ before.rest = bytes ++ after.rest

/-! ## Bytes taken one after another -/

theorem RunsOut.bind {reader : Reader α} {stream : ByteStream} {finish : Nat}
    (h : RunsOut (reader stream) finish) (f : α → Reader β) :
    RunsOut ((reader >>= f) stream) finish := by
  obtain ⟨position, expected, got, after, failed, sum, lt⟩ := h
  refine ⟨position, expected, got, after, ?_, sum, lt⟩
  change EStateM.bind reader f stream = _
  rw [EStateM.bind, failed]

namespace Takes

variable {reader : Reader α} {start : Nat} {first second : List UInt8} {a : α} {b : β}

theorem pure (a : α) (start : Nat) : Takes (pure a) start [] a where
  whole _ := rfl
  short _ h := absurd h (Nat.not_lt_zero _)

theorem position_eq {before after : ByteStream} (h : Takes reader before.position first a)
    (rest : before.rest = first ++ after.rest) (read : reader before = .ok a after) :
    after.position = before.position + first.length := by
  have again := h.whole after.rest
  rw [← rest] at again
  injection read.symm.trans again with _ same
  rw [same]

theorem bind {f : α → Reader β} (h : Takes reader start first a)
    (hf : Takes (f a) (start + first.length) second b) :
    Takes (reader >>= f) start (first ++ second) b where
  whole rest := by
    rw [List.append_assoc, bind_of_ok (h.whole _), hf.whole, List.length_append, Nat.add_assoc]
  short k lt := by
    by_cases inFirst : k < first.length
    · rw [List.take_append_of_le_length (Nat.le_of_lt inFirst)]
      exact (h.short k inFirst).bind f
    · -- The first reader has all its bytes, so the second one comes to the end.
      rw [Nat.not_lt] at inFirst
      rw [List.length_append] at lt
      have short := hf.short (k - first.length) (by omega)
      rw [List.take_append, List.take_of_length_le inFirst, bind_of_ok (h.whole _)]
      rwa [Nat.add_assoc, Nat.add_sub_of_le inFirst] at short

theorem take (start : Nat) (bytes : List UInt8) :
    Takes (Reader.take bytes.length) start bytes bytes where
  whole rest := by simp [Reader.take]
  short k lt := by
    refine ⟨start, bytes.length, k, ⟨start, []⟩, ?_, rfl, lt⟩
    have taken : ((bytes.take k).take bytes.length).length = k := by
      rw [List.length_take, List.length_take]
      omega
    simp only [Reader.take, taken, if_pos lt]

end Takes

/-! ## Exact readers -/

namespace Exact

variable {reader : Reader α}

theorem never (fails : ∀ a before after, reader before ≠ .ok a after) : Exact reader :=
  fun a before after h => absurd h (fails a before after)

theorem pure (a : α) : Exact (pure a) := by
  intro b before after h
  cases h
  exact ⟨[], .pure _ _, rfl⟩

theorem bind {f : α → Reader β} (h : Exact reader) (hf : ∀ a, Exact (f a)) :
    Exact (reader >>= f) := by
  intro b before after read
  obtain ⟨a, middle, read, read'⟩ := Reads.bind_eq_ok.1 read
  obtain ⟨first, takes, rest⟩ := h a before middle read
  obtain ⟨second, takes', rest'⟩ := hf a b middle after read'
  rw [takes.position_eq rest read] at takes'
  exact ⟨first ++ second, takes.bind takes', by rw [rest, rest', List.append_assoc]⟩

theorem map (h : Exact reader) (f : α → β) : Exact (f <$> reader) := by
  rw [map_eq_pure_bind]
  exact h.bind fun a => pure (f a)

theorem take (size : Nat) : Exact (Reader.take size) := by
  intro taken before after read
  obtain ⟨bytes, ⟨rfl, rfl⟩, rest, -⟩ := (Reads.take size taken before after).1 read
  exact ⟨bytes, .take _ _, rest⟩

theorem skip (size : Nat) : Exact (Reader.skip size) := (take size).bind fun _ => pure ()

theorem u1 : Exact Reader.u1 := (take 1).map bigEndian

theorem u2 : Exact Reader.u2 := (take 2).map bigEndian

theorem u4 : Exact Reader.u4 := (take 4).map bigEndian

theorem ofExcept (result : Except Malformed α) : Exact (Reader.ofExcept result) := by
  cases result with
  | ok a => exact pure a
  | error e => exact never fun _ _ _ h => by cases h

theorem text : Exact Reader.text := u2.bind fun size => (take size).bind fun _ => ofExcept _

theorem times (h : Exact reader) (count : Nat) : Exact (Reader.times count reader) := by
  induction count with
  | zero => exact pure []
  | succ count ih =>
    rw [times_succ]
    exact h.bind fun a => ih.bind fun as => pure (a :: as)

theorem table (h : Exact reader) : Exact (Reader.table reader) := u2.bind fun count => h.times count

end Exact

end Reader

open Reader

/-! ## Class files -/

theorem Constant.exact_read (index : Nat) : Exact (Constant.read index) := by
  refine Exact.u1.bind fun tag => ?_
  split_ifs
  · exact Exact.text.bind fun value => .pure (Constant.text value)
  · exact Exact.u2.bind fun nameIndex => .pure (Constant.classRef nameIndex)
  · split
    · next size _ => exact (Exact.skip size).bind fun _ => .pure (Constant.other _)
    · exact .never fun _ _ _ h => by cases h

theorem ConstantPool.exact_fill (count : Nat) (pool : ConstantPool) : Exact (fill count pool) := by
  fun_induction fill count pool with
  | case1 pool free ih => exact (Constant.exact_read pool.size).bind ih
  | case2 pool full => exact .pure pool

theorem ConstantPool.exact_read : Exact ConstantPool.read :=
  Exact.u2.bind fun count => exact_fill count empty

namespace ClassFile

variable (pool : ConstantPool)

theorem exact_namesAt (index : Nat) : Exact (namesAt pool index) :=
  (Exact.ofExcept _).bind fun _ => .ofExcept _

theorem exact_readAttribute : Exact (readAttribute pool) := by
  refine Exact.u2.bind fun nameIndex => (Exact.ofExcept _).bind fun name =>
    Exact.u4.bind fun size => ?_
  split_ifs
  · exact Exact.u2.bind fun index => exact_namesAt pool index
  · exact (Exact.skip size).bind fun _ => .pure []

theorem exact_readAttributes : Exact (readAttributes pool) :=
  (exact_readAttribute pool).table.map List.flatten

theorem exact_readMember : Exact (readMember pool) :=
  (Exact.skip 4).bind fun _ => Exact.u2.bind fun index => (exact_namesAt pool index).bind fun _ =>
    (exact_readAttributes pool).bind fun _ => .pure _

theorem exact_readMembers : Exact (readMembers pool) :=
  (exact_readMember pool).table.map List.flatten

theorem exact_read : Exact read :=
  (Exact.skip 8).bind fun _ => ConstantPool.exact_read.bind fun pool =>
    (Exact.skip 2).bind fun _ => Exact.u2.bind fun _ => (Exact.ofExcept _).bind fun _ =>
    (Exact.ofExcept _).bind fun _ => (Exact.skip 2).bind fun _ => Exact.u2.bind fun interfaces =>
    (Exact.skip (2 * interfaces)).bind fun _ => (exact_readMembers pool).bind fun _ =>
    (exact_readMembers pool).bind fun _ => (exact_readAttributes pool).bind fun _ => .pure _

/-- An accepted byte string starts with bytes that the reader takes as a whole. -/
theorem exists_takes_of_ofBytes {bytes : List UInt8} {file : ClassFile}
    (accepted : ofBytes bytes = .ok file) : ∃ p rest, bytes = p ++ rest ∧ Takes read 0 p file := by
  unfold ofBytes at accepted
  split at accepted
  · next found after read =>
    cases accepted
    obtain ⟨p, takes, split⟩ := exact_read file _ after read
    exact ⟨p, after.rest, split, takes⟩
  · cases accepted

theorem ofBytes_of_takes {p : List UInt8} {file : ClassFile} (h : Takes read 0 p file)
    (rest : List UInt8) : ofBytes (p ++ rest) = .ok file := by
  rw [ofBytes, ByteStream.ofBytes, h.whole]

theorem ofBytes_of_short {p : List UInt8} {file : ClassFile} (h : Takes read 0 p file) {k : Nat}
    (lt : k < p.length) : ∃ position expected got,
      ofBytes (p.take k) = .error (.endOfStream position expected got) ∧ position + got = k ∧
        got < expected := by
  obtain ⟨position, expected, got, after, failed, sum, less⟩ := h.short k lt
  refine ⟨position, expected, got, ?_, by omega, less⟩
  rw [ofBytes, ByteStream.ofBytes, failed]

end ClassFile

namespace ClassSummary

/-- An accepted byte string has one length up to which its bytes count: whatever is put behind these
bytes, the summary is the same, and every shorter part of them is refused for lack of bytes, at the
very end of the part. -/
theorem existsUnique_length_of_ofBytes {bytes : List UInt8} {summary : ClassSummary}
    (accepted : ofBytes bytes = .ok summary) :
    ∃! n, n ≤ bytes.length ∧ (∀ rest, ofBytes (bytes.take n ++ rest) = .ok summary) ∧
      ∀ k < n, ∃ position expected got,
        ofBytes (bytes.take k) = .error (.endOfStream position expected got) ∧
        (Malformed.endOfStream position expected got).message =
          "Unexpected end of stream at byte " ++ Text.ofNat position ++ ": expected " ++
            Text.ofNat expected ++ " bytes, got " ++ Text.ofNat got ++ "." ∧
        position + got = k ∧ got < expected := by
  obtain ⟨file, read, rfl⟩ := map_eq_ok.1 accepted
  obtain ⟨p, rest, rfl, takes⟩ := ClassFile.exists_takes_of_ofBytes read
  refine ⟨p.length, ⟨?_, ?_, ?_⟩, ?_⟩
  · simp
  · intro rest'
    rw [List.take_left, ofBytes, ClassFile.ofBytes_of_takes takes]
    rfl
  · intro k lt
    obtain ⟨position, expected, got, failed, sum, less⟩ := ClassFile.ofBytes_of_short takes lt
    refine ⟨position, expected, got, ?_, rfl, sum, less⟩
    rw [List.take_append_of_le_length (Nat.le_of_lt lt), ofBytes, failed]
    rfl
  · -- Of two such lengths the shorter one would be refused on account of the longer one.
    rintro n ⟨-, whole, short⟩
    have same := whole []
    rw [List.append_nil] at same
    rcases Nat.lt_trichotomy n p.length with lt | rfl | gt
    · obtain ⟨position, expected, got, failed, -⟩ := ClassFile.ofBytes_of_short takes lt
      rw [List.take_append_of_le_length (Nat.le_of_lt lt), ofBytes, failed] at same
      cases same
    · rfl
    · obtain ⟨position, expected, got, refused, -⟩ := short p.length gt
      rw [List.take_left, ofBytes] at refused
      have whole' := ClassFile.ofBytes_of_takes takes []
      rw [List.append_nil] at whole'
      rw [whole'] at refused
      cases refused

theorem existsUnique_length_of_ofBytes_sampleClass :
    ofBytes sampleClass = .ok ⟨"A", [("B" : Text), ("C" : Text)]⟩ ∧
      ∃ n ≤ sampleClass.length,
        (∀ rest, ofBytes (sampleClass.take n ++ rest) = .ok ⟨"A", [("B" : Text), ("C" : Text)]⟩) ∧
        ∀ k < n, ∃ position expected got,
          ofBytes (sampleClass.take k) = .error (.endOfStream position expected got) ∧
          position + got = k ∧ got < expected := by
  obtain ⟨n, ⟨le, whole, short⟩, -⟩ := existsUnique_length_of_ofBytes ofBytes_sampleClass
  refine ⟨ofBytes_sampleClass, n, le, whole, fun k lt => ?_⟩
  obtain ⟨position, expected, got, refused, -, sum, less⟩ := short k lt
  exact ⟨position, expected, got, refused, sum, less⟩

end ClassSummary

end ClassOrder
