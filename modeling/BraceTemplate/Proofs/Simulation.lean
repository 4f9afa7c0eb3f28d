import BraceTemplate.Proofs.Operation

/-! Destinations side by side. Over any run of operations a count is that of the text written, and storage holds
that text up to the operation with which the text outgrows it. -/
namespace BraceTemplate

/-- Whether a result is a refusal for want of room. -/
def Result.isCapacityExceeded {α : Type} : Result α → Bool
  | .error (.format (.capacityExceeded ..)) => true
  | _ => false

namespace Operation

/-- An operation fails for its own fault where there is room. -/
private theorem Spells.not_isCapacityExceeded {operation : Operation} {chunks : List Chunk}
    {outcome : Except FormatError Unit} (h : operation.Spells chunks outcome) :
    (Result.ofError outcome).isCapacityExceeded = false := by
  cases outcome with
  | ok _ => rfl
  | error error =>
    have input := h.isInputError error rfl
    cases error with
    | capacityExceeded => cases input
    | _ => rfl

private theorem trace_count (held : String) (operations : List Operation) :
    trace (ByteCount.mk held.utf8ByteSize) operations =
      (trace (TextSink.mk held) operations).map fun after => (after.1, ⟨after.2.text.utf8ByteSize⟩) := by
  induction operations generalizing held with
  | nil => rfl
  | cons operation operations ih =>
    obtain ⟨chunks, outcome, spells⟩ := operation.exists_spells
    rw [trace_cons (spells.attempt_text held), trace_cons (spells.attempt_count held.utf8ByteSize), List.map_cons,
      ← ih, String.utf8ByteSize_append, Text.utf8ByteSize_ofList]

/-- A text never gets shorter. -/
private theorem utf8ByteSize_le_of_mem_trace {held : String} {operations : List Operation}
    {after : Result Unit × TextSink}
    (h : after ∈ trace (TextSink.mk held) operations) : held.utf8ByteSize ≤ after.2.text.utf8ByteSize := by
  induction operations generalizing held with
  | nil => cases h
  | cons operation operations ih =>
    obtain ⟨chunks, outcome, spells⟩ := operation.exists_spells
    have longer : held.utf8ByteSize ≤ (held ++ String.ofList (Chunk.output chunks)).utf8ByteSize := by
      rw [String.utf8ByteSize_append]
      exact Nat.le_add_right _ _
    rw [trace_cons (spells.attempt_text held)] at h
    rcases List.mem_cons.mp h with rfl | later
    · exact longer
    · exact Nat.le_trans longer (ih later)

/-- Storage follows a text that it can hold, and is the first to be refused when it cannot. -/
structure Follows (grown : List (Result Unit × TextSink)) (fixed : List (Result Unit × FixedBuffer))
    (capacity : Nat) : Prop where
  same : ∀ (n : Nat) after, grown[n]? = some after → after.2.text.utf8ByteSize ≤ capacity →
    (fixed.take (n + 1)).map (fun after => (after.1, after.2.text)) =
      (grown.take (n + 1)).map fun after => (after.1, after.2.text)
  refused : grown.findIdx? (fun after => decide (capacity < after.2.text.utf8ByteSize)) =
    fixed.findIdx? fun after => after.1.isCapacityExceeded

namespace Follows

variable {grown : List (Result Unit × TextSink)} {fixed : List (Result Unit × FixedBuffer)} {capacity : Nat}

/-- An operation whose text fits is the same for both. -/
theorem cons (later : Follows grown fixed capacity) {result : Result Unit} {text : String} {next : FixedBuffer}
    (fits : text.utf8ByteSize ≤ capacity) (holds : next.text = text) (accepted : result.isCapacityExceeded = false) :
    Follows ((result, ⟨text⟩) :: grown) ((result, next) :: fixed) capacity where
  same n after found small := by
    cases n with
    | zero => simp [holds]
    | succ n =>
      rw [List.take_succ_cons, List.take_succ_cons, List.map_cons, List.map_cons, later.same n after found small, holds]
  refused := by
    rw [List.findIdx?_cons, List.findIdx?_cons, if_neg (by simpa using fits), if_neg (by simp [accepted]),
      later.refused]

/-- Behind a text that does not fit nothing is asked of either. -/
private theorem of_full {first : Result Unit × TextSink} {stopped : Result Unit × FixedBuffer}
    (full : ∀ after ∈ first :: grown, capacity < after.2.text.utf8ByteSize) (refused : stopped.1.isCapacityExceeded) :
    Follows (first :: grown) (stopped :: fixed) capacity where
  same n after found small := absurd small (Nat.not_le_of_lt (full after (List.mem_of_getElem? found)))
  refused := by
    rw [List.findIdx?_cons, List.findIdx?_cons, if_pos (decide_eq_true (full first List.mem_cons_self)), if_pos refused]

end Follows

private theorem trace_follows {held : String} {buffer : FixedBuffer} (holds : buffer.written = held.toByteArray)
    (operations : List Operation) :
    Follows (trace (TextSink.mk held) operations) (trace buffer operations) buffer.capacity := by
  induction operations generalizing held buffer with
  | nil => exact ⟨nofun, rfl⟩
  | cons operation operations ih =>
    obtain ⟨chunks, outcome, spells⟩ := operation.exists_spells
    have longer : (held ++ String.ofList (Chunk.output chunks)).utf8ByteSize =
        buffer.size + Text.byteCount (Chunk.output chunks) := by
      rw [String.utf8ByteSize_append, Text.utf8ByteSize_ofList, ← buffer.size_written, holds, String.size_toByteArray]
    rw [trace_cons (spells.attempt_text held)]
    rcases Nat.lt_or_ge buffer.capacity (buffer.size + Text.byteCount (Chunk.output chunks)) with full | room
    · obtain ⟨required, added, next, refused, -⟩ := spells.attempt_buffer_of_lt full
      rw [← longer] at full
      rw [trace_cons refused]
      refine .of_full (fun after member => ?_) rfl
      rcases List.mem_cons.mp member with rfl | later
      · exact full
      · exact Nat.lt_of_lt_of_le full (utf8ByteSize_le_of_mem_trace later)
    · obtain ⟨next, written, laid⟩ := spells.attempt_buffer_of_le room
      have holds_more : next.written = (held ++ String.ofList (Chunk.output chunks)).toByteArray := by
        rw [laid.written, holds, String.toByteArray_append]
      have later := ih holds_more
      rw [laid.capacity] at later
      rw [trace_cons written]
      exact later.cons (longer ▸ room) (laid.text_append holds) spells.not_isCapacityExceeded

end Operation

/-- Whatever is written, and whatever of it fails, an unbounded text and a byte count give the same results, and the
count is that of the bytes of the text. Storage of any size gives the same results and holds the same text as
long as the text is not longer than the storage. The first operation behind which it is longer is the first that is
refused for want of room, whether or not it also has a fault of its own. -/
theorem sinks_simulate (operations : List Operation) (storage : ByteArray) :
    Operation.trace ByteCount.zero operations =
      (Operation.trace TextSink.empty operations).map (fun after => (after.1, ⟨after.2.text.utf8ByteSize⟩)) ∧
    (∀ (n : Nat) after, (Operation.trace TextSink.empty operations)[n]? = some after →
      after.2.text.utf8ByteSize ≤ storage.size →
        ((Operation.trace (FixedBuffer.over storage) operations).take (n + 1)).map (fun after => (after.1, after.2.text)) =
          ((Operation.trace TextSink.empty operations).take (n + 1)).map fun after => (after.1, after.2.text)) ∧
    (Operation.trace TextSink.empty operations).findIdx? (fun after => decide (storage.size < after.2.text.utf8ByteSize)) =
      (Operation.trace (FixedBuffer.over storage) operations).findIdx? fun after => after.1.isCapacityExceeded := by
  have holds : (FixedBuffer.over storage).written = ("" : String).toByteArray := ByteArray.extract_same
  have follows := Operation.trace_follows holds operations
  exact ⟨Operation.trace_count "" operations, follows.same, follows.refused⟩

/-- A text is refused for want of room before its fault is met, and the next one for its fault. -/
example : (Operation.trace (FixedBuffer.over (zeroBytes 3)) [.text "ab", .template "cd%q", .template "%q"]).map (·.1) =
    [.ok (), .error (.format (.capacityExceeded 3 4)), .error (.format (.unknownConversion 'q' 1))] := by
  decide +kernel

end BraceTemplate
