import BraceTemplate.Proofs.Chunk

/-! Runs of writes to a fixed buffer. A run stops in front of the first piece that does not fit, behind
which the storage is as it was. -/
namespace BraceTemplate

/-- The bytes of a text are read as that text. -/
theorem Text.fromUTF8?_toByteArray (text : String) : String.fromUTF8? text.toByteArray = some text :=
  dif_pos text.isValidUTF8

/-- The pieces that a call writes to a fixed buffer, each as a whole or not at all. -/
def Chunk.pieces : Chunk → List String
  | char c => [c.toString]
  | text written => [written]
  | decimal n => (Decimal.digits32 n).map Char.toString

theorem Chunk.join_pieces (chunks : List Chunk) :
    String.join (chunks.flatMap pieces) = String.ofList (output chunks) := by
  have single (chunk : Chunk) : chunk.pieces.flatMap String.toList = chunk.chars := by
    cases chunk with
    | char c => simp [pieces, chars]
    | text written => simp [pieces, chars]
    | decimal n => simp [pieces, chars, List.flatMap_map]
  apply String.toList_inj.mp
  rw [String.toList_join, List.flatMap_assoc, String.toList_ofList, output]
  exact congrArg (List.flatMap · chunks) (funext single)

namespace FixedBuffer

/-- `next` is `buffer` with `text` written behind what it held. -/
structure Extends (buffer : FixedBuffer) (text : String) (next : FixedBuffer) : Prop where
  size : next.size = buffer.size + text.utf8ByteSize
  written : next.written = buffer.written ++ text.toByteArray
  capacity : next.capacity = buffer.capacity
  rest : next.storage.extract next.size next.capacity = buffer.storage.extract next.size buffer.capacity

theorem size_written (buffer : FixedBuffer) : buffer.written.size = buffer.size := by
  have inside := buffer.size_le
  rw [written, ByteArray.size_extract]
  omega

namespace Extends

variable {buffer middle next : FixedBuffer} {front back text : String}

theorem refl (buffer : FixedBuffer) : Extends buffer "" buffer where
  size := rfl
  written := by simp
  capacity := rfl
  rest := rfl

theorem trans (first : Extends buffer front middle) (second : Extends middle back next) :
    Extends buffer (front ++ back) next where
  size := by
    rw [second.size, first.size, String.utf8ByteSize_append]
    omega
  written := by rw [second.written, first.written, String.toByteArray_append, ByteArray.append_assoc]
  capacity := second.capacity.trans first.capacity
  rest := by
    have later : next.size = middle.size + back.utf8ByteSize := second.size
    have narrow (storage : ByteArray) (stop : Nat) : storage.extract next.size stop =
        (storage.extract middle.size stop).extract back.utf8ByteSize (stop - middle.size) := by
      rw [ByteArray.extract_extract, ← later]
      congr 1
      omega
    rw [second.rest, narrow middle.storage, first.rest, first.capacity, ← narrow]

/-- Storage that is laid out as the written bytes, the text and the old rest. -/
private theorem of_storage (size : next.size = buffer.size + text.utf8ByteSize)
    (inside : next.size ≤ buffer.capacity) (laid : next.storage =
      buffer.written ++ text.toByteArray ++ buffer.storage.extract next.size buffer.capacity) :
    Extends buffer text next := by
  have front : (buffer.written ++ text.toByteArray).size = next.size := by
    rw [ByteArray.size_append, size_written, size, String.size_toByteArray]
  have rest : (buffer.storage.extract next.size buffer.capacity).size = buffer.capacity - next.size := by
    rw [ByteArray.size_extract, FixedBuffer.capacity, Nat.min_self]
  have capacity : next.capacity = buffer.capacity := by
    rw [FixedBuffer.capacity, laid, ByteArray.size_append, front, rest]
    omega
  refine ⟨size, ?_, capacity, ?_⟩
  · rw [FixedBuffer.written, laid, ByteArray.extract_append_eq_left front.symm]
  · rw [capacity, laid]
    exact ByteArray.extract_append_eq_right front.symm (by rw [front, rest]; omega)

/-- Text behind text is text again. -/
theorem text_append {held : String} (before : buffer.written = held.toByteArray) (h : Extends buffer text next) :
    next.text = held ++ text := by
  have bytes : next.written = (held ++ text).toByteArray := by
    rw [h.written, before, String.toByteArray_append]
  rw [FixedBuffer.text, bytes, Text.fromUTF8?_toByteArray]
  rfl

section Over

/-! The first text that is written over a storage stands at its beginning. -/
variable {storage : ByteArray} (h : Extends (FixedBuffer.over storage) text next)

include h

theorem size_eq : next.size = text.utf8ByteSize := h.size.trans (Nat.zero_add _)

theorem written_eq : next.written = text.toByteArray := by
  have nothing : (FixedBuffer.over storage).written = ByteArray.empty := ByteArray.extract_same
  rw [h.written, nothing, ByteArray.empty_append]

theorem text_eq : next.text = text := by
  rw [FixedBuffer.text, h.written_eq, Text.fromUTF8?_toByteArray]
  rfl

end Over

end Extends

theorem append_of_le {buffer : FixedBuffer} {text : String}
    (h : buffer.size + text.utf8ByteSize ≤ buffer.capacity) :
    ∃ next, append text buffer = .ok () next ∧ Extends buffer text next := by
  have fits : buffer.size + text.toByteArray.size ≤ buffer.storage.size := h
  refine ⟨_, by rw [append, dif_pos fits], .of_storage rfl h ?_⟩
  have whole : min text.toByteArray.size (text.toByteArray.data.size - 0) = text.toByteArray.size :=
    Nat.min_self _
  dsimp only
  rw [ByteArray.copySlice_eq_append, whole, Nat.zero_add, ByteArray.extract_zero_size]
  rfl

theorem append_of_lt {buffer : FixedBuffer} {text : String}
    (h : buffer.capacity < buffer.size + text.utf8ByteSize) :
    append text buffer =
      .error (.format (.capacityExceeded buffer.capacity (buffer.size + text.utf8ByteSize))) buffer := by
  have full : ¬ buffer.size + text.toByteArray.size ≤ buffer.storage.size := Nat.not_le_of_lt h
  rw [append, dif_neg full]
  rfl

theorem writeAll_eq (chunks : List Chunk) :
    (Chunk.writeAll chunks : Write FixedBuffer Unit) = forM (chunks.flatMap Chunk.pieces) append := by
  have digits (cs : List Char) : (forM cs (append ·.toString) : Write FixedBuffer Unit) =
      forM (cs.map Char.toString) append := by
    induction cs with
    | nil => rfl
    | cons c cs ih => rw [List.forM_cons, List.map_cons, List.forM_cons, ih]
  induction chunks with
  | nil => rfl
  | cons chunk chunks ih =>
    have once : (chunk.write : Write FixedBuffer Unit) = forM chunk.pieces append := by
      cases chunk with
      | char c => simp [Chunk.write, Chunk.pieces, Sink.writeChar]
      | text written => simp [Chunk.write, Chunk.pieces, Sink.writeText]
      | decimal n => exact digits (Decimal.digits32 n)
    rw [Chunk.writeAll_cons, List.flatMap_cons, List.forM_append, ih, once]

variable {buffer : FixedBuffer}

private theorem forM_append_of_le {pieces : List String}
    (h : buffer.size + (String.join pieces).utf8ByteSize ≤ buffer.capacity) :
    ∃ next, forM pieces append buffer = .ok () next ∧ Extends buffer (String.join pieces) next := by
  induction pieces generalizing buffer with
  | nil => exact ⟨buffer, rfl, .refl buffer⟩
  | cons piece pieces ih =>
    rw [String.join_cons, String.utf8ByteSize_append] at h
    have fits : buffer.size + piece.utf8ByteSize ≤ buffer.capacity := by omega
    obtain ⟨middle, written, first⟩ := append_of_le fits
    have room : middle.size + (String.join pieces).utf8ByteSize ≤ middle.capacity := by
      rw [first.size, first.capacity]
      omega
    obtain ⟨next, later, second⟩ := ih room
    refine ⟨next, ?_, ?_⟩
    · rw [List.forM_cons, Write.bind_ok written, later]
    · rw [String.join_cons]
      exact first.trans second

private theorem forM_append_of_lt {pieces : List String}
    (h : buffer.capacity < buffer.size + (String.join pieces).utf8ByteSize) :
    ∃ front piece back next, pieces = front ++ piece :: back ∧ Extends buffer (String.join front) next ∧
      buffer.capacity < next.size + piece.utf8ByteSize ∧
      forM pieces append buffer =
        .error (.format (.capacityExceeded buffer.capacity (next.size + piece.utf8ByteSize))) next := by
  induction pieces generalizing buffer with
  | nil =>
    have inside : buffer.size ≤ buffer.capacity := buffer.size_le
    exact absurd h (Nat.not_lt_of_le inside)
  | cons piece pieces ih =>
    rw [String.join_cons, String.utf8ByteSize_append] at h
    by_cases fits : buffer.size + piece.utf8ByteSize ≤ buffer.capacity
    · obtain ⟨middle, written, first⟩ := append_of_le fits
      have exceeds : middle.capacity < middle.size + (String.join pieces).utf8ByteSize := by
        rw [first.size, first.capacity]
        omega
      obtain ⟨front, refused, back, next, split, second, full, error⟩ := ih exceeds
      rw [first.capacity] at full error
      refine ⟨piece :: front, refused, back, next, by rw [split, List.cons_append], ?_, full, ?_⟩
      · rw [String.join_cons]
        exact first.trans second
      · rw [List.forM_cons, Write.bind_ok written, error]
    · have full := Nat.lt_of_not_le fits
      refine ⟨[], piece, pieces, buffer, rfl, .refl buffer, full, ?_⟩
      rw [List.forM_cons, Write.bind_error (append_of_lt full)]

/-- Calls whose output fits are all made. -/
theorem writeAll_of_le {chunks : List Chunk}
    (h : buffer.size + Text.byteCount (Chunk.output chunks) ≤ buffer.capacity) :
    ∃ next, Chunk.writeAll chunks buffer = .ok () next ∧
      Extends buffer (String.ofList (Chunk.output chunks)) next := by
  rw [writeAll_eq, ← Chunk.join_pieces]
  apply forM_append_of_le
  rwa [Chunk.join_pieces, Text.utf8ByteSize_ofList]

/-- Calls whose output does not fit are made up to the first piece that exceeds the capacity. -/
theorem writeAll_of_lt {chunks : List Chunk}
    (h : buffer.capacity < buffer.size + Text.byteCount (Chunk.output chunks)) :
    ∃ front piece back next, chunks.flatMap Chunk.pieces = front ++ piece :: back ∧
      Extends buffer (String.join front) next ∧ buffer.capacity < next.size + piece.utf8ByteSize ∧
      Chunk.writeAll chunks buffer =
        .error (.format (.capacityExceeded buffer.capacity (next.size + piece.utf8ByteSize))) next := by
  rw [writeAll_eq]
  apply forM_append_of_lt
  rwa [Chunk.join_pieces, Text.utf8ByteSize_ofList]

section Attempt

variable {chunks : List Chunk}

/-- Calls whose output fits are followed by the outcome behind them. -/
theorem attempt_of_le (h : buffer.size + Text.byteCount (Chunk.output chunks) ≤ buffer.capacity)
    (outcome : Except FormatError Unit) :
    ∃ next, Write.attempt (do Chunk.writeAll chunks; Write.ofResult (Result.ofError outcome)) buffer =
        (Result.ofError outcome, next) ∧ Extends buffer (String.ofList (Chunk.output chunks)) next := by
  obtain ⟨next, written, laid⟩ := writeAll_of_le h
  refine ⟨next, ?_, laid⟩
  rw [Write.attempt, Write.bind_ok written]
  cases outcome <;> rfl

/-- Calls whose output does not fit are refused before the outcome behind them. -/
theorem attempt_of_lt (h : buffer.capacity < buffer.size + Text.byteCount (Chunk.output chunks))
    (outcome : Except FormatError Unit) :
    ∃ front piece back next, chunks.flatMap Chunk.pieces = front ++ piece :: back ∧
      Extends buffer (String.join front) next ∧ buffer.capacity < next.size + piece.utf8ByteSize ∧
      Write.attempt (do Chunk.writeAll chunks; Write.ofResult (Result.ofError outcome)) buffer =
        (.error (.format (.capacityExceeded buffer.capacity (next.size + piece.utf8ByteSize))), next) := by
  obtain ⟨front, piece, back, next, split, laid, full, refused⟩ := writeAll_of_lt h
  refine ⟨front, piece, back, next, split, laid, full, ?_⟩
  rw [Write.attempt, Write.bind_error refused]

end Attempt

end FixedBuffer

end BraceTemplate
