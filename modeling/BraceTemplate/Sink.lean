import BraceTemplate.FormatError

/-! Destinations for output. A write may be refused, and then what was written before it
stays, so writes are computations on the destination that keep it also when they fail. Output goes to a
text, to a counter of bytes, or to storage of a fixed size. -/
namespace BraceTemplate

/-- A computation that writes to a destination of type `σ`. -/
abbrev Write (σ : Type) := EStateM Failure σ

/-- A computation that does not write. -/
def Write.ofResult {σ α : Type} : Result α → Write σ α
  | .ok a => pure a
  | .error failure => throw failure

/-- The result of a computation, and the destination afterwards. -/
def Write.attempt {σ α : Type} (write : Write σ α) (sink : σ) : Result α × σ :=
  match write sink with
  | .ok a sink => (.ok a, sink)
  | .error failure sink => (.error failure, sink)

/-- The result of a computation together with the destination, if it succeeds. -/
def Write.run {σ α : Type} (write : Write σ α) (sink : σ) : Result (α × σ) :=
  match write sink with
  | .ok a sink => .ok (a, sink)
  | .error failure _ => .error failure

namespace Write

variable {σ α β : Type} {sink next : σ}

theorem bind_ok {write : Write σ α} {a : α} (h : write sink = .ok a next) (rest : α → Write σ β) :
    (write >>= rest) sink = rest a next := by
  simp [bind, EStateM.bind, h]

theorem bind_error {write : Write σ α} {failure : Failure} (h : write sink = .error failure next)
    (rest : α → Write σ β) : (write >>= rest) sink = .error failure next := by
  simp [bind, EStateM.bind, h]

end Write

/-- A destination that output is appended to. Texts and numbers are written character by
character unless the destination has a better way. -/
class Sink (σ : Type) where
  writeChar : Char → Write σ Unit
  writeText : String → Write σ Unit := fun text => text.toList.forM writeChar
  /-- Appends the decimal digits of a number. -/
  writeDecimal : UInt32 → Write σ Unit := fun n => (Decimal.digits32 n).forM writeChar
  size : σ → Nat

def Sink.isEmpty {σ : Type} [Sink σ] (sink : σ) : Bool := Sink.size sink == 0

/-- A destination that keeps all of its output, as a text, and has room for any amount. -/
structure TextSink where
  text : String
  deriving DecidableEq, Repr

namespace TextSink

def empty : TextSink := ⟨""⟩

instance : Sink TextSink where
  writeChar c := modify fun sink => ⟨sink.text.push c⟩
  writeText text := modify fun sink => ⟨sink.text ++ text⟩
  size sink := sink.text.utf8ByteSize

end TextSink

/-- A destination that keeps nothing of its output but the number of its bytes. -/
structure ByteCount where
  count : Nat
  deriving DecidableEq, Repr

namespace ByteCount

def zero : ByteCount := ⟨0⟩

instance : Sink ByteCount where
  writeChar c := modify fun sink => ⟨sink.count + c.utf8Size⟩
  writeText text := modify fun sink => ⟨sink.count + text.utf8ByteSize⟩
  size sink := sink.count

end ByteCount

/-- A destination over a caller's storage, of which the first `size` bytes have been written. It is never
enlarged: a text is written as a whole or not at all, and storage behind the written bytes keeps what
it held. -/
structure FixedBuffer where
  storage : ByteArray
  size : Nat
  size_le : size ≤ storage.size

namespace FixedBuffer

/-- The buffer over `storage` before the first write. -/
def «over» (storage : ByteArray) : FixedBuffer := ⟨storage, 0, Nat.zero_le _⟩

/-- The bytes that the storage holds in all. -/
def capacity (buffer : FixedBuffer) : Nat := buffer.storage.size

def remaining (buffer : FixedBuffer) : Nat := buffer.capacity - buffer.size

def written (buffer : FixedBuffer) : ByteArray := buffer.storage.extract 0 buffer.size

/-- The written text, or no text where the bytes are not one. -/
def text (buffer : FixedBuffer) : String := (String.fromUTF8? buffer.written).getD ""

/-- Writing inside the storage does not change its size. -/
theorem size_copySlice {bytes storage : ByteArray} {offset : Nat}
    (h : offset + bytes.size ≤ storage.size) :
    (bytes.copySlice 0 storage offset bytes.size).size = storage.size := by
  have hb : bytes.data.size = bytes.size := rfl
  have hs : storage.data.size = storage.size := rfl
  rw [ByteArray.copySlice_eq_append, ByteArray.size_append, ByteArray.size_append,
    ByteArray.size_extract, ByteArray.size_extract, ByteArray.size_extract]
  omega

/-- Writes all of `text` behind the written bytes, if it fits there. -/
def append (text : String) : Write FixedBuffer Unit := fun buffer =>
  let required := buffer.size + text.toByteArray.size
  if h : required ≤ buffer.storage.size then
    .ok () {
      storage := text.toByteArray.copySlice 0 buffer.storage buffer.size text.toByteArray.size
      size := required
      size_le := by rw [size_copySlice h]; exact h }
  else .error (.format (.capacityExceeded buffer.capacity required)) buffer

instance : Sink FixedBuffer where
  writeChar c := append c.toString
  writeText := append
  size := FixedBuffer.size

/-- A one-line description: a heading, the capacity, and the written text under a label. -/
def describe (heading label : String) (buffer : FixedBuffer) : String :=
  heading ++ " \x7b capacity: " ++ Decimal.text buffer.capacity ++ ", " ++ label ++ ": "
    ++ Text.quote buffer.text ++ " \x7d"

end FixedBuffer

end BraceTemplate
