import BraceTemplate.Proofs.Capacity
import BraceTemplate.Sink.Operation

/-! What an operation is to every destination: the same calls, and the same fault of its text behind them, so that
destinations can only differ by the room they have. -/
namespace BraceTemplate.Operation

/-- On every destination, the operation makes these calls and then ends with this outcome, which is no matter of
room. -/
structure Spells (operation : Operation) (chunks : List Chunk) (outcome : Except FormatError Unit) : Prop where
  write : ∀ (σ : Type) [Sink σ], (operation.write : Write σ Unit) =
    (do Chunk.writeAll chunks; Write.ofResult (Result.ofError outcome))
  isInputError : ∀ error, outcome = .error error → error.isInputError

/-- An operation that only makes calls has no fault. -/
private theorem Spells.of_writeAll {operation : Operation} {chunks : List Chunk}
    (h : ∀ (σ : Type) [Sink σ], (operation.write : Write σ Unit) = Chunk.writeAll chunks) :
    operation.Spells chunks (.ok ()) where
  write σ _ := by
    rw [h]
    exact bind_pure_unit.symm
  isInputError _ refused := by cases refused

theorem exists_spells (operation : Operation) : ∃ chunks outcome, operation.Spells chunks outcome := by
  cases operation with
  | char c => exact ⟨_, _, .of_writeAll fun _ _ => (Chunk.writeAll_singleton (.char c)).symm⟩
  | text written => exact ⟨_, _, .of_writeAll fun _ _ => (Chunk.writeAll_singleton (.text written)).symm⟩
  | decimal n => exact ⟨_, _, .of_writeAll fun _ _ => (Chunk.writeAll_singleton (.decimal n)).symm⟩
  | placeholder destination field => exact ⟨_, _, .of_writeAll fun _ _ => Placeholder.write_eq destination field⟩
  | template source =>
    obtain ⟨items, ending, reading⟩ := exists_reading source.toList
    exact ⟨_, _, fun _ _ => reading.transcode, fun error refused => reading.isInputError refused⟩

variable {operation : Operation} {chunks : List Chunk} {outcome : Except FormatError Unit}

theorem Spells.attempt_text (h : operation.Spells chunks outcome) (held : String) :
    operation.write.attempt (TextSink.mk held) =
      (Result.ofError outcome, ⟨held ++ String.ofList (Chunk.output chunks)⟩) := by
  rw [h.write, TextSink.unbounded.attempt]

theorem Spells.attempt_count (h : operation.Spells chunks outcome) (count : Nat) :
    operation.write.attempt (ByteCount.mk count) =
      (Result.ofError outcome, ⟨count + Text.byteCount (Chunk.output chunks)⟩) := by
  rw [h.write, ByteCount.unbounded.attempt]

variable {buffer : FixedBuffer}

theorem Spells.attempt_buffer_of_le (h : operation.Spells chunks outcome)
    (room : buffer.size + Text.byteCount (Chunk.output chunks) ≤ buffer.capacity) :
    ∃ next, operation.write.attempt buffer = (Result.ofError outcome, next) ∧
      buffer.Extends (String.ofList (Chunk.output chunks)) next := by
  rw [h.write]
  exact FixedBuffer.attempt_of_le room outcome

theorem Spells.attempt_buffer_of_lt (h : operation.Spells chunks outcome)
    (full : buffer.capacity < buffer.size + Text.byteCount (Chunk.output chunks)) :
    ∃ required added next,
      operation.write.attempt buffer = (.error (.format (.capacityExceeded buffer.capacity required)), next) ∧
        buffer.Extends added next := by
  obtain ⟨front, piece, back, next, -, laid, -, refused⟩ := FixedBuffer.attempt_of_lt full outcome
  rw [← h.write] at refused
  exact ⟨_, _, next, refused, laid⟩

end BraceTemplate.Operation
