import ClassOrder.ClassFile.Malformed

/-!
# Reading bytes in order

A stream gives its bytes front to back and counts them; a reader takes some of them and answers, or
fails. Numbers are unsigned with the most significant byte first.
-/

namespace ClassOrder

/-- The bytes not read so far, and how many were read before them. -/
structure ByteStream where
  position : Nat
  rest : List UInt8
  deriving DecidableEq, Repr

namespace ByteStream

/-- The stream of all bytes of a file. -/
def ofBytes (bytes : List UInt8) : ByteStream := ⟨0, bytes⟩

end ByteStream

/-- A computation that reads from a stream. A failed one leaves a stream too. -/
abbrev Reader := EStateM Malformed ByteStream

namespace Reader

/-- Takes exactly this many bytes. When fewer are left, they are lost and the position stays. -/
def take (size : Nat) : Reader (List UInt8) := fun stream =>
  let taken := stream.rest.take size
  if taken.length < size then
    .error (.endOfStream stream.position size taken.length) ⟨stream.position, []⟩
  else .ok taken ⟨stream.position + size, stream.rest.drop size⟩

/-- Passes over this many bytes. -/
def skip (size : Nat) : Reader Unit := do
  let _ ← take size

/-- The position in the stream. -/
def position : Reader Nat := fun stream => .ok stream.position stream

/-- The number with these base-256 digits. -/
def bigEndian (bytes : List UInt8) : Nat := bytes.foldl (fun n b => 256 * n + b.toNat) 0

/-- A number of one byte. -/
def u1 : Reader Nat := bigEndian <$> take 1

/-- A number of two bytes. -/
def u2 : Reader Nat := bigEndian <$> take 2

/-- A number of four bytes. -/
def u4 : Reader Nat := bigEndian <$> take 4

/-- The outcome of a check that reads nothing. -/
def ofExcept {α : Type} : Except Malformed α → Reader α
  | .ok a => pure a
  | .error e => throw e

/-- A text in modified UTF-8, behind its length in two bytes. -/
def text : Reader Text := do
  let size ← u2
  let bytes ← take size
  ofExcept ((ModifiedUtf8.decode bytes).mapError .encoding)

/-- Repeats a reader; `done` holds the answers so far, last first. -/
def repeatOnto {α : Type} (item : Reader α) : Nat → List α → Reader (List α)
  | 0, done => pure done.reverse
  | count + 1, done => do
    let a ← item
    repeatOnto item count (a :: done)

/-- The answers of a reader that is run a number of times. -/
def times {α : Type} (count : Nat) (item : Reader α) : Reader (List α) := repeatOnto item count []

theorem repeatOnto_eq {α : Type} (item : Reader α) (count : Nat) (done : List α) :
    repeatOnto item count done = (done.reverse ++ ·) <$> times count item := by
  induction count generalizing done with
  | zero => simp [times, repeatOnto]
  | succ count ih =>
    simp only [times, repeatOnto, map_bind]
    congr 1
    funext a
    rw [ih (a :: done), ih [a], ← comp_map]
    congr 1
    funext as
    simp

theorem times_succ {α : Type} (item : Reader α) (count : Nat) :
    times (count + 1) item = do return (← item) :: (← times count item) := by
  simp only [times, repeatOnto]
  congr 1
  funext a
  rw [repeatOnto_eq, map_eq_pure_bind]
  rfl

/-- A table: a count in two bytes, then that many items. -/
def table {α : Type} (item : Reader α) : Reader (List α) := do
  let count ← u2
  times count item

end Reader

end ClassOrder
