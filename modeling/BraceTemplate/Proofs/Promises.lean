import BraceTemplate.Proofs.CallerMemory
import BraceTemplate.Proofs.Envelope
import BraceTemplate.Proofs.Offsets
import BraceTemplate.Sink.Charwise

/-! Promises between the parts of the library. No text, buffer, capacity or hint makes the library break one: what
is asked for fails with an error at most, and the error can be located and reported. -/
namespace BraceTemplate

namespace FormatError

/-- The range of the error can be made, and so can its diagnostic. -/
structure Reportable (error : FormatError) : Prop where
  span : ∃ span, error.span = .ok span
  diagnostic : ∃ diagnostic, error.diagnostic = .ok diagnostic

private theorem reportable_of_span {error : FormatError} {span : Option Span} (h : error.span = .ok span) :
    error.Reportable :=
  ⟨⟨span, h⟩, _, diagnostic_of_span h⟩

end FormatError

/-- The result breaks no promise. If it is none, there is an error to report. -/
def Result.Safe {α : Type} (result : Result α) : Prop :=
  ∀ failure, result = .error failure → ∃ error, failure = .format error ∧ error.Reportable

namespace Result

variable {α : Type}

theorem safe_ok (a : α) : Safe (.ok a) := nofun

theorem safe_error {error : FormatError} (h : error.Reportable) : Safe (.error (.format error) : Result α) := by
  intro failure same
  exact ⟨error, (Except.error.inj same).symm, h⟩

/-- Nothing fails safely but the conversion of a text and writes for which there is no room. -/
private theorem safe_of_convert (source : String) {result : Result α}
    (h : ∀ failure, result = .error failure → BraceTemplate.convert source = .error failure ∨
      ∃ limit required, failure = .format (.capacityExceeded limit required)) : result.Safe := by
  intro failure failed
  rcases h failure failed with refused | ⟨limit, required, rfl⟩
  · obtain ⟨error, span, marked, rfl, points⟩ := exists_pointsAt refused
    exact ⟨error, rfl, FormatError.reportable_of_span points.span_eq⟩
  · exact ⟨_, rfl, FormatError.reportable_of_span rfl⟩

end Result

/-- Whatever the destination holds, the computation breaks no promise on it. -/
def Write.Safe {σ α : Type} (write : Write σ α) : Prop := ∀ sink, (write.attempt sink).1.Safe

namespace Write

variable {σ α β : Type}

private theorem safe_ofResult {result : Result α} (h : result.Safe) : Safe (ofResult result : Write σ α) := by
  intro sink
  cases result with
  | ok a => exact Result.safe_ok a
  | error failure => exact h

theorem Safe.bind {write : Write σ α} {rest : α → Write σ β} (first : write.Safe) (later : ∀ a, (rest a).Safe) :
    (write >>= rest).Safe := by
  intro sink
  have here := first sink
  unfold attempt at here ⊢
  cases done : write sink with
  | ok a next =>
    rw [bind_ok done]
    exact later a next
  | error failure next =>
    rw [bind_error done]
    rw [done] at here
    intro other same
    exact here other (congrArg Except.error (Except.error.inj same))

private theorem safe_forM {items : List β} {write : β → Write σ Unit} (h : ∀ item, (write item).Safe) :
    Safe (items.forM write : Write σ Unit) := by
  induction items with
  | nil => exact safe_ofResult (Result.safe_ok ())
  | cons item items ih => exact (h item).bind fun _ => ih

end Write

/-- A destination whose own writes break no promise. -/
structure Sink.Safe (σ : Type) [Sink σ] : Prop where
  char : ∀ c, (Sink.writeChar c : Write σ Unit).Safe
  text : ∀ text, (Sink.writeText text : Write σ Unit).Safe
  decimal : ∀ n, (Sink.writeDecimal n : Write σ Unit).Safe

namespace Sink

theorem Unbounded.safe {σ : Type} [Sink σ] {append : σ → List Char → σ} (h : Unbounded append) : Safe σ where
  char c sink := by
    rw [Write.attempt, h.char]
    exact Result.safe_ok ()
  text text sink := by
    rw [Write.attempt, h.text]
    exact Result.safe_ok ()
  decimal n := by
    rw [h.decimal]
    apply Write.safe_forM
    intro c sink
    rw [Write.attempt, h.char]
    exact Result.safe_ok ()

theorem safe_fixedBuffer : Safe FixedBuffer := by
  have append (text : String) : (FixedBuffer.append text).Safe := by
    intro buffer
    rcases Nat.lt_or_ge buffer.capacity (buffer.size + text.utf8ByteSize) with full | room
    · rw [Write.attempt, FixedBuffer.append_of_lt full]
      exact Result.safe_error (FormatError.reportable_of_span rfl)
    · obtain ⟨next, written, -⟩ := FixedBuffer.append_of_le room
      rw [Write.attempt, written]
      exact Result.safe_ok ()
  exact ⟨fun c => append c.toString, append, fun n => Write.safe_forM fun c => append c.toString⟩

theorem safe_charwiseSink : Safe CharwiseSink := by
  have append (c : Char) : (CharwiseSink.append c).Safe := by
    intro sink
    by_cases room : sink.text.utf8ByteSize + c.utf8Size ≤ sink.capacity
    · rw [Write.attempt, CharwiseSink.append, if_pos room]
      exact Result.safe_ok ()
    · rw [Write.attempt, CharwiseSink.append, if_neg room]
      exact Result.safe_error (FormatError.reportable_of_span rfl)
  exact ⟨append, fun text => Write.safe_forM append, fun n => Write.safe_forM append⟩

end Sink

section Operations

variable {source : String}

private theorem Chunk.safe_writeAll {σ : Type} [Sink σ] (safe : Sink.Safe σ) (chunks : List Chunk) :
    (writeAll chunks : Write σ Unit).Safe := by
  apply Write.safe_forM
  intro chunk
  cases chunk with
  | char c => exact safe.char c
  | text written => exact safe.text written
  | decimal n => exact safe.decimal n

/-- Writing a template breaks no promise that the destination does not break itself. -/
theorem safe_transcode {σ : Type} [Sink σ] (safe : Sink.Safe σ) (source : String) :
    (transcode source : Write σ Unit).Safe := by
  obtain ⟨items, ending, reading⟩ := exists_reading source.toList
  rw [reading.transcode]
  refine (Chunk.safe_writeAll safe _).bind fun _ => Write.safe_ofResult (Result.safe_of_convert source ?_)
  intro failure failed
  refine .inl (reading.refused_iff.mpr ?_)
  cases outcome : reading.outcome with
  | ok _ =>
    rw [outcome] at failed
    cases failed
  | error error =>
    rw [outcome] at failed
    exact ⟨error, rfl, (Except.error.inj failed).symm⟩

/-- Storage keeps its size, whatever is written there. -/
theorem capacity_convertInto (source : String) (storage : ByteArray) :
    (convertInto source storage).2.capacity = storage.size := by
  obtain ⟨items, ending, reading⟩ := exists_reading source.toList
  rcases Nat.lt_or_ge storage.size (writtenBytes source) with full | room
  · obtain ⟨required, next, conversion, capacity, -⟩ := reading.convertInto_of_lt full
    rw [conversion]
    exact capacity
  · obtain ⟨next, conversion, laid⟩ := reading.convertInto_of_le room
    rw [conversion]
    exact laid.capacity

/-- Nothing that is done with `source` breaks a promise, and written bytes are always inside of their storage. -/
structure KeepsPromises (source : String) : Prop where
  transcode : ∀ (σ : Type) [Sink σ], Sink.Safe σ → (BraceTemplate.transcode source : Write σ Unit).Safe
  convert : (BraceTemplate.convert source).Safe
  scan : (BraceTemplate.scan source).Safe
  lint : (BraceTemplate.lint source).Safe
  estimate : ∀ policy, (estimateCapacity source policy).Safe
  convertInto : ∀ storage, (BraceTemplate.convertInto source storage).1.Safe ∧
    (BraceTemplate.convertInto source storage).2.storage.size = storage.size ∧
    (BraceTemplate.convertInto source storage).2.size ≤ storage.size
  convertFixed : ∀ hint policy, (BraceTemplate.convertFixed source hint policy).Safe ∧
    ∀ buffer, BraceTemplate.convertFixed source hint policy = .ok buffer → buffer.size ≤ buffer.storage.size
  envelope : ∃ envelope, Envelope.build source = .ok envelope

private theorem keepsPromises (source : String) : KeepsPromises source where
  transcode _ _ safe := safe_transcode safe source
  convert := Result.safe_of_convert source fun _ => .inl
  scan := Result.safe_of_convert source fun _ failed => .inl (scan_eq_error_iff.mp failed)
  lint := Result.safe_of_convert source fun _ failed => .inl (lint_eq_error_iff.mp failed)
  estimate policy :=
    Result.safe_of_convert source fun _ failed => .inl (convertFixed_of_estimate_error failed).2
  convertInto storage := by
    have capacity : (BraceTemplate.convertInto source storage).2.storage.size = storage.size :=
      capacity_convertInto source storage
    exact ⟨Result.safe_of_convert source fun _ => convertInto_eq_error, capacity, capacity ▸ FixedBuffer.size_le _⟩
  convertFixed hint policy := ⟨Result.safe_of_convert source fun _ => convertFixed_eq_error, fun buffer _ => buffer.size_le⟩
  envelope := Envelope.exists_build source

end Operations

namespace CInterface

private theorem byteCount_ne_brokenPromise (n : Nat) : byteCount n ≠ brokenPromise := by
  unfold byteCount
  split
  · rw [brokenPromise]
    omega
  · decide

/-- No call returns the status or the report of a broken promise. -/
structure KeepsPromises (argument memory : Option ByteArray) : Prop where
  convertInto : (CInterface.convertInto argument memory).1 ≠ brokenPromise
  estimate : CInterface.estimate argument ≠ brokenPromise
  convert : ∀ source, readText? argument = some source → ∃ envelope, Envelope.build source = .ok envelope ∧
    CInterface.convert argument = handOver? envelope.toJson.compact

private theorem convertInto_ne_brokenPromise (argument memory : Option ByteArray) :
    (CInterface.convertInto argument memory).1 ≠ brokenPromise := by
  have invalid : invalidArgument ≠ brokenPromise := by decide
  have small : noCapacity ≠ brokenPromise := by decide
  have malformed : malformedFormat ≠ brokenPromise := by decide
  cases read : readText? argument with
  | none =>
    unfold CInterface.convertInto
    rw [read]
    exact invalid
  | some source =>
    cases memory with
    | none =>
      unfold CInterface.convertInto
      rw [read]
      exact invalid
    | some memory =>
      obtain ⟨result, after, conversion, outcome⟩ := exists_outcome read memory
      rw [conversion]
      cases outcome with
      | noMemory | full => exact small
      | refused => exact malformed
      | converted => exact byteCount_ne_brokenPromise _

private theorem estimate_ne_brokenPromise (argument : Option ByteArray) :
    CInterface.estimate argument ≠ brokenPromise := by
  cases read : readText? argument with
  | none =>
    unfold CInterface.estimate
    rw [read]
    decide
  | some source =>
    cases conversion : BraceTemplate.convert source with
    | ok out =>
      rw [estimate_of_read read, conversion]
      exact byteCount_ne_brokenPromise _
    | error failure =>
      rw [estimate_of_refused read conversion]
      decide

private theorem keepsPromises (argument memory : Option ByteArray) : KeepsPromises argument memory where
  convertInto := convertInto_ne_brokenPromise argument memory
  estimate := estimate_ne_brokenPromise argument
  convert source read := by
    obtain ⟨envelope, built⟩ := Envelope.exists_build source
    refine ⟨envelope, built, ?_⟩
    rw [CInterface.convert, read]
    simp only [Option.bind_eq_bind, Option.bind_some, built]

end CInterface

/-- No promise is broken: not by anything that is done with a text, in whichever destination, capacity or hint,
not by a call from C, and not by a scanner that is offered characters at offsets which do not decrease and goes on
behind refusals. Ten places hold the digits of every number. -/
theorem promises_kept (source : String) (argument memory : Option ByteArray) (calls : List (Nat × Char))
    (ordered : calls.Pairwise fun call later => call.1 ≤ later.1)
    (room : ∀ call ∈ calls, call.1 + 4 ≤ maxByteCount) :
    KeepsPromises source ∧ CInterface.KeepsPromises argument memory ∧ Scanner.KeepsOffsets calls ∧
      (Sink.Safe TextSink ∧ Sink.Safe ByteCount ∧ Sink.Safe FixedBuffer ∧ Sink.Safe CharwiseSink) ∧
      ∀ n : UInt32, (Decimal.fill 10 n.toNat []).isSome :=
  ⟨keepsPromises source, CInterface.keepsPromises argument memory, Scanner.keepsOffsets ordered room,
    ⟨TextSink.unbounded.safe, ByteCount.unbounded.safe, Sink.safe_fixedBuffer, Sink.safe_charwiseSink⟩,
    fun n => Decimal.fill_isSome [] (Nat.lt_trans n.toNat_lt (by decide))⟩

/-- A digit is missing, and the clause goes on behind the refusal of the wider character in its place. -/
theorem promises_kept_of_missing_digit :
    KeepsPromises "%.é" ∧ CInterface.KeepsPromises (some (CInterface.terminated "%.é" .empty)) (some .empty) ∧
      Scanner.KeepsOffsets [(0, '%'), (1, '.'), (2, 'é'), (2, '5'), (9, 'd')] := by
  obtain ⟨text, call, offered, -⟩ := promises_kept "%.é" (some (CInterface.terminated "%.é" .empty)) (some .empty)
    [(0, '%'), (1, '.'), (2, 'é'), (2, '5'), (9, 'd')] (by decide) (by decide)
  exact ⟨text, call, offered⟩

end BraceTemplate
