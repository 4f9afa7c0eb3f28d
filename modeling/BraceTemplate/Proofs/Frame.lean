import Mathlib.Data.List.Chain
import BraceTemplate.Proofs.Operation

/-! Storage over any run of operations. Whatever is refused on the way, the written bytes are a text that only ever
grows, and the storage behind them is as it was at first. -/
namespace BraceTemplate

private theorem Decimal.utf8Size_of_mem_digits32 {n : UInt32} {c : Char} (h : c ∈ digits32 n) : c.utf8Size = 1 := by
  obtain ⟨ds, spelled, -⟩ := exists_spell_digits n.toNat
  rw [digits32_eq_digits, spelled] at h
  obtain ⟨d, -, rfl⟩ := List.mem_map.mp h
  exact utf8Size_digitChar d

namespace FixedBuffer

/-- What is true of a buffer over `storage` at any time. -/
structure Keeps (storage : ByteArray) (buffer : FixedBuffer) : Prop where
  capacity : buffer.capacity = storage.size
  size_le : buffer.size ≤ buffer.capacity
  remaining : buffer.size + buffer.remaining = buffer.capacity
  text : String.fromUTF8? buffer.written = some buffer.text
  rest : buffer.storage.extract buffer.size buffer.capacity = storage.extract buffer.size storage.size

private theorem Extends.keeps {storage : ByteArray} {text : String} {next : FixedBuffer}
    (h : (FixedBuffer.over storage).Extends text next) : next.Keeps storage where
  capacity := h.capacity
  size_le := next.size_le
  remaining := Nat.add_sub_cancel' next.size_le
  text := by rw [h.text_eq, h.written_eq, Text.fromUTF8?_toByteArray]
  rest := h.rest

/-- How a text is taken that is written as a whole or not at all. -/
structure TakesWhole (buffer : FixedBuffer) (text : String) (after : Result Unit × FixedBuffer) : Prop where
  fits : buffer.size + text.utf8ByteSize ≤ buffer.capacity → after.1 = .ok () ∧ buffer.Extends text after.2
  full : buffer.capacity < buffer.size + text.utf8ByteSize →
    after.1 = .error (.format (.capacityExceeded buffer.capacity (buffer.size + text.utf8ByteSize))) ∧ after.2 = buffer

/-- How digits are taken, each for itself. -/
structure TakesDigits (buffer : FixedBuffer) (digits : List Char) (after : Result Unit × FixedBuffer) : Prop where
  fits : buffer.size + digits.length ≤ buffer.capacity →
    after.1 = .ok () ∧ buffer.Extends (String.ofList digits) after.2
  full : buffer.capacity < buffer.size + digits.length →
    after.1 = .error (.format (.capacityExceeded buffer.capacity (buffer.capacity + 1))) ∧
      buffer.Extends (String.ofList (digits.take buffer.remaining)) after.2

private theorem takesWhole_append (buffer : FixedBuffer) (text : String) :
    buffer.TakesWhole text ((append text).attempt buffer) where
  fits room := by
    obtain ⟨next, written, laid⟩ := append_of_le room
    rw [Write.attempt, written]
    exact ⟨rfl, laid⟩
  full small := by
    rw [Write.attempt, append_of_lt small]
    exact ⟨rfl, rfl⟩

private theorem join_map_toString (chars : List Char) :
    String.join (chars.map Char.toString) = String.ofList chars := by
  have pieces := Chunk.join_pieces (chars.map .char)
  have single : (chars.map Chunk.char).flatMap Chunk.pieces = chars.map Char.toString := by
    rw [List.flatMap_map]
    exact List.map_eq_flatMap.symm
  rw [← single, pieces]
  simp [Chunk.output, Chunk.chars, List.flatMap_map]

/-- Pieces of one character each are as many as the characters in front of the refused one. -/
private theorem exists_take_of_split {chars : List Char} {front back : List String} {piece : String}
    (split : chars.map Char.toString = front ++ piece :: back) :
    String.join front = String.ofList (chars.take front.length) ∧ (chars.take front.length).length = front.length ∧
      ∃ c ∈ chars, c.toString = piece := by
  have taken : front = (chars.take front.length).map Char.toString := by
    rw [List.map_take, split, List.take_left]
  refine ⟨(congrArg String.join taken).trans (join_map_toString _), ?_, ?_⟩
  · simpa using (congrArg List.length taken).symm
  · apply List.mem_map.mp
    rw [split]
    simp

private theorem takesDigits_decimal (buffer : FixedBuffer) (n : UInt32) :
    buffer.TakesDigits (Decimal.digits32 n) ((Operation.decimal n).write.attempt buffer) := by
  have call : (Operation.decimal n).write = (Chunk.writeAll [.decimal n] : Write FixedBuffer Unit) :=
    (Chunk.writeAll_singleton (.decimal n)).symm
  have output : Chunk.output [.decimal n] = Decimal.digits32 n := List.append_nil _
  have bytes {count : Nat} :
      Text.byteCount ((Decimal.digits32 n).take count) = ((Decimal.digits32 n).take count).length :=
    Text.byteCount_eq_length fun c member => Decimal.utf8Size_of_mem_digits32 (List.mem_of_mem_take member)
  have all : Text.byteCount (Chunk.output [.decimal n]) = (Decimal.digits32 n).length := by
    rw [output]
    exact Text.byteCount_eq_length fun c => Decimal.utf8Size_of_mem_digits32
  rw [call]
  constructor
  · intro room
    rw [← all] at room
    obtain ⟨next, written, laid⟩ := writeAll_of_le room
    rw [Write.attempt, written]
    exact ⟨rfl, output ▸ laid⟩
  · intro small
    rw [← all] at small
    obtain ⟨front, piece, back, next, split, laid, full, refused⟩ := writeAll_of_lt small
    obtain ⟨added, length, c, digit, rfl⟩ := exists_take_of_split ((List.append_nil _).symm.trans split)
    have narrow : c.toString.utf8ByteSize = 1 :=
      String.utf8ByteSize_singleton.trans (Decimal.utf8Size_of_mem_digits32 digit)
    have size : next.size = buffer.size + front.length := by
      rw [laid.size, added, Text.utf8ByteSize_ofList, bytes, length]
    have inside : next.size ≤ buffer.capacity := laid.capacity ▸ next.size_le
    -- The first digit that is refused finds the storage full.
    have filled : next.size = buffer.capacity := by omega
    have count : front.length = buffer.remaining := by
      rw [remaining]
      omega
    rw [Write.attempt, refused, narrow, filled, ← count, ← added]
    exact ⟨rfl, laid⟩

end FixedBuffer

namespace Operation

/-- An operation writes behind what there is, also if it fails. -/
private theorem exists_extends (operation : Operation) (buffer : FixedBuffer) :
    ∃ added, buffer.Extends added (operation.write.attempt buffer).2 := by
  obtain ⟨chunks, outcome, spells⟩ := operation.exists_spells
  rcases Nat.lt_or_ge buffer.capacity (buffer.size + Text.byteCount (Chunk.output chunks)) with full | room
  · obtain ⟨required, added, next, refused, laid⟩ := spells.attempt_buffer_of_lt full
    rw [refused]
    exact ⟨added, laid⟩
  · obtain ⟨next, written, laid⟩ := spells.attempt_buffer_of_le room
    rw [written]
    exact ⟨_, laid⟩

private theorem isChain_trace (buffer : FixedBuffer) (operations : List Operation) :
    (buffer :: (trace buffer operations).map Prod.snd).IsChain fun before after => ∃ added, before.Extends added after := by
  induction operations generalizing buffer with
  | nil => exact .singleton _
  | cons operation operations ih => exact .cons_cons (operation.exists_extends buffer) (ih _)

private theorem exists_extends_of_mem_trace {buffer : FixedBuffer} {operations : List Operation}
    {after : Result Unit × FixedBuffer} (h : after ∈ trace buffer operations) :
    ∃ added, buffer.Extends added after.2 := by
  induction operations generalizing buffer with
  | nil => cases h
  | cons operation operations ih =>
    obtain ⟨added, first⟩ := operation.exists_extends buffer
    rcases List.mem_cons.mp h with rfl | later
    · exact ⟨added, first⟩
    · obtain ⟨more, second⟩ := ih later
      exact ⟨added ++ more, first.trans second⟩

end Operation

/-- Over any run of operations that goes on after failures, storage keeps its size, what is written of it is a text, and
the rest of it is as it was at first. Each operation leaves what was written before and at most writes behind it.
A character or a text that does not fit changes nothing and is reported with all the bytes that it would have needed,
and of a number that does not fit the leading digits are written that do. -/
theorem fixedBuffer_frame (storage : ByteArray) (operations : List Operation) :
    (∀ after ∈ Operation.trace (FixedBuffer.over storage) operations, after.2.Keeps storage) ∧
    (FixedBuffer.over storage :: (Operation.trace (FixedBuffer.over storage) operations).map Prod.snd).IsChain
      (fun before after => ∃ added, before.Extends added after) ∧
    ∀ buffer : FixedBuffer,
      (∀ c, buffer.TakesWhole c.toString ((Operation.char c).write.attempt buffer)) ∧
      (∀ text, buffer.TakesWhole text ((Operation.text text).write.attempt buffer)) ∧
      ∀ n, buffer.TakesDigits (Decimal.digits32 n) ((Operation.decimal n).write.attempt buffer) := by
  refine ⟨?_, Operation.isChain_trace _ operations, fun buffer => ⟨fun c => ?_, fun text => ?_, fun n => ?_⟩⟩
  · intro after member
    obtain ⟨added, extended⟩ := Operation.exists_extends_of_mem_trace member
    exact extended.keeps
  · exact buffer.takesWhole_append c.toString
  · exact buffer.takesWhole_append text
  · exact buffer.takesDigits_decimal n

/-- A text of two-byte characters is refused as a whole, and the digits behind it are not. -/
example : (Operation.trace (FixedBuffer.over (zeroBytes 3)) [.text "a", .text "éé", .decimal 123]).map
      (fun after => (after.1, after.2.text)) =
    [(.ok (), "a"), (.error (.format (.capacityExceeded 3 5)), "a"),
      (.error (.format (.capacityExceeded 3 4)), "a12")] := by
  decide +kernel

end BraceTemplate
