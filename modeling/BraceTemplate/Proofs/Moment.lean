import Mathlib.Logic.Relation
import BraceTemplate.Proofs.CorrectPrefix
import BraceTemplate.Proofs.Filling

/-! Conversion call by call. Whatever has been read, the destination holds a part of what is written for that
alone, and the scanner is behind the beginning of a clause that it has read since. -/
namespace BraceTemplate

/-- The calls that a call comes down to where numbers are written digit by digit. -/
def Chunk.calls : Chunk → List Chunk
  | decimal n => (Decimal.digits32 n).map char
  | call => [call]

private theorem Chunk.output_calls (chunks : List Chunk) : output (chunks.flatMap calls) = output chunks := by
  have once (chunk : Chunk) : output chunk.calls = chunk.chars := by
    cases chunk with
    | char | text => exact List.append_nil _
    | decimal n => simp [calls, output, chars, List.flatMap_map]
  induction chunks with
  | nil => rfl
  | cons chunk chunks ih => rw [List.flatMap_cons, output_append, once, ih, output_cons]

/-- A moment of a conversion between two calls on the destination. -/
structure Moment (σ : Type) where
  scanner : Scanner
  /-- The bytes that have been read. -/
  offset : Nat
  /-- The calls that are still to be made for them. -/
  pending : List Chunk
  rest : List Char
  sink : σ

namespace Moment

variable {σ : Type} [Sink σ]

def start (source : String) (sink : σ) : Moment σ := ⟨.start, 0, [], source.toList, sink⟩

/-- What the conversion does from the moment on. -/
def remaining (moment : Moment σ) : Write σ Unit := do
  Chunk.writeAll moment.pending
  moment.scanner.transcode moment.offset moment.rest

/-- From a moment to the next one: the first pending call is made, or a character is read when none is pending. -/
inductive Advances : Moment σ → Moment σ → Prop where
  | writes {scanner : Scanner} {offset : Nat} {call : Chunk} {pending : List Chunk} {rest : List Char} {sink next : σ}
    (written : call.write sink = .ok () next) :
    Advances ⟨scanner, offset, call :: pending, rest, sink⟩ ⟨scanner, offset, pending, rest, next⟩
  | reads {scanner next : Scanner} {offset : Nat} {c : Char} {step : Step}
    (taken : scanner.step offset c = .ok (step, next)) (rest : List Char) (sink : σ) :
    Advances ⟨scanner, offset, [], c :: rest, sink⟩
      ⟨next, offset + c.utf8Size, step.chunks.flatMap Chunk.calls, rest, sink⟩

/-- The moments of the conversion of a text. -/
def Of (source : String) (sink : σ) (moment : Moment σ) : Prop :=
  Relation.ReflTransGen Advances (start source sink) moment

variable {append : σ → List Char → σ} {moment next : Moment σ}

/-- The next moment has the rest of the conversion in front of it. -/
private theorem Advances.remaining_eq (h : moment.Advances next) (unbounded : Sink.Unbounded append) :
    moment.remaining moment.sink = next.remaining next.sink := by
  cases h with
  | writes written =>
    rw [remaining, remaining, Chunk.writeAll_cons, bind_assoc, Write.bind_ok written]
  | reads taken rest sink =>
    have made (chunks : List Chunk) := unbounded.writeAll chunks sink
    rw [remaining, remaining, Chunk.writeAll_nil, pure_bind, Scanner.transcode_cons taken, Step.write_eq,
      Write.bind_ok (made _), Write.bind_ok (made _), Chunk.output_calls]

/-- What is behind the moment: the text that has been read, which decides what is still to be done for it. -/
structure Behind (read : List Char) (first : σ) (moment : Moment σ) : Prop where
  offset : moment.offset = Text.byteCount read
  remaining : ∀ back, Scanner.start.transcode 0 (read ++ back) first =
    { moment with rest := back }.remaining moment.sink

theorem Advances.behind (h : moment.Advances next) (unbounded : Sink.Unbounded append) {read : List Char} {first : σ}
    (before : moment.Behind read first) :
    ∃ more, moment.rest = more ++ next.rest ∧ next.Behind (read ++ more) first := by
  cases h with
  | writes written =>
    refine ⟨[], rfl, by rw [List.append_nil]; exact before.offset, fun back => ?_⟩
    rw [List.append_nil, before.remaining]
    exact (writes written).remaining_eq unbounded
  | @reads _ _ offset c _ taken rest sink =>
    refine ⟨[c], rfl, ?_, fun back => ?_⟩
    · have read_so_far : offset = Text.byteCount read := before.offset
      rw [Text.byteCount_append, Text.byteCount_singleton, read_so_far]
    · rw [List.append_assoc, before.remaining]
      exact (reads taken back sink).remaining_eq unbounded

theorem Of.exists_behind {source : String} {first : σ} (h : Of source first moment)
    (unbounded : Sink.Unbounded append) :
    ∃ read, source.toList = read ++ moment.rest ∧ moment.Behind read first := by
  induction h with
  | refl =>
    refine ⟨[], rfl, rfl, fun back => ?_⟩
    rw [remaining, start, Chunk.writeAll_nil, pure_bind]
    rfl
  | tail _ advances ih =>
    obtain ⟨read, split, before⟩ := ih
    obtain ⟨more, rest, after⟩ := advances.behind unbounded before
    exact ⟨read ++ more, by rw [split, rest, List.append_assoc], after⟩

/-- Every moment has a next one, up to the end of the text or a character that is refused. -/
theorem advances_or_ends (unbounded : Sink.Unbounded append) (moment : Moment σ) :
    (∃ next, moment.Advances next) ∨ (moment.remaining.attempt moment.sink).2 = moment.sink := by
  obtain ⟨scanner, offset, pending, rest, sink⟩ := moment
  have kept (result : Result Unit) : ((Write.ofResult result).attempt sink).2 = sink := by
    cases result <;> rfl
  cases pending with
  | cons call pending => exact .inl ⟨_, .writes (unbounded.write call sink)⟩
  | nil =>
    rw [remaining, Chunk.writeAll_nil, pure_bind]
    cases rest with
    | nil => exact .inr (kept _)
    | cons c rest =>
      cases answer : scanner.step offset c with
      | ok taken => exact .inl ⟨_, .reads answer rest sink⟩
      | error failure =>
        right
        rw [Scanner.transcode_error answer]
        exact kept _

/-- No moment holds more than the conversion of the text read so far, together with what is pending. -/
theorem Behind.output_eq {read : List Char} {first : σ} (h : moment.Behind read first)
    (unbounded : Sink.Unbounded append) :
    ((transcode (String.ofList read)).attempt first).2 = append moment.sink (Chunk.output moment.pending) := by
  have all := h.remaining []
  rw [List.append_nil, Moment.remaining, Write.bind_ok (unbounded.writeAll _ _), Scanner.transcode] at all
  rw [Write.attempt, transcode, String.toList_ofList, all]
  cases Result.ofError (moment.scanner.finish moment.offset) <;> rfl

end Moment

/-- What is taken behind a stem: the stem grows, its clause is finished, or a percent sign is escaped. -/
theorem Stem.Legal.taken_cases {stem : Stem} (legal : stem.Legal) {clauseStart offset : Nat} {c : Char} {step : Step}
    {next : Scanner} (ordered : clauseStart ≤ offset)
    (taken : (stem.scanner clauseStart).step offset c = .ok (step, next)) :
    (∃ grown, Stem.Grows stem c grown ∧ step = .pending ∧ next = grown.scanner clauseStart) ∨
      (∃ conversion, stem.precision ≠ some [] ∧ c = conversion.char ∧
        step = .specifier ⟨stem.field, conversion, ⟨clauseStart, offset + c.utf8Size⟩⟩ ∧
        next = ⟨.outside, .empty, clauseStart⟩) ∨
      step = .percent ∧ next = ⟨.outside, .empty, clauseStart⟩ := by
  by_cases accepts : stem.Accepts c
  · rcases accepts with ⟨grown, grows⟩ | ⟨digit, conversion, rfl⟩ | ⟨rfl, rfl⟩
    · cases (grows.step legal clauseStart offset).symm.trans taken
      exact .inl ⟨grown, grows, rfl, rfl⟩
    · cases (Stem.step_conversion digit conversion ordered).symm.trans taken
      exact .inr (.inl ⟨conversion, digit, rfl, rfl, rfl⟩)
    · cases (Stem.step_percent clauseStart offset).symm.trans taken
      exact .inr (.inr ⟨rfl, rfl⟩)
  · cases (Stem.step_refusal legal accepts clauseStart offset).symm.trans taken

namespace Scanner

/-- Outside of clauses, or behind all that has been read since a clause began. -/
inductive Abreast : Scanner → Nat → Prop where
  | outside (clauseStart offset : Nat) : Abreast ⟨.outside, .empty, clauseStart⟩ offset
  | inside {stem : Stem} (legal : stem.Legal) {clauseStart offset : Nat}
    (read : offset = clauseStart + Text.byteCount stem.text) : Abreast (stem.scanner clauseStart) offset

variable {scanner next : Scanner} {offset : Nat} {c : Char} {step : Step}

theorem Abreast.advance (h : scanner.Abreast offset) (taken : scanner.step offset c = .ok (step, next)) :
    next.Abreast (offset + c.utf8Size) := by
  cases h with
  | outside clauseStart =>
    by_cases percent : c = '%'
    · subst percent
      cases (step_open rfl offset).symm.trans taken
      exact .inside Stem.legal_opened rfl
    · cases (step_literal rfl percent offset).symm.trans taken
      exact .outside _ _
  | inside legal read =>
    rcases legal.taken_cases (Nat.le.intro read.symm) taken with ⟨grown, grows, -, rfl⟩ | ⟨_, -, -, -, rfl⟩ | ⟨-, rfl⟩
    · refine .inside (grows.legal legal) ?_
      rw [grows.text, Text.byteCount_append, Text.byteCount_singleton, read, Nat.add_assoc]
    · exact .outside _ _
    · exact .outside _ _

/-- A specifier that is completed has the bytes of a legal clause. -/
theorem Abreast.exists_clause (h : scanner.Abreast offset) {found : Specifier}
    (taken : scanner.step offset c = .ok (.specifier found, next)) :
    ∃ clause : Clause, clause.Legal ∧ clause.field = found.field ∧ clause.conversion = found.conversion ∧
      Text.byteCount clause.text = found.span.size := by
  cases h with
  | outside clauseStart =>
    by_cases percent : c = '%'
    · subst percent
      cases (step_open rfl offset).symm.trans taken
    · cases (step_literal rfl percent offset).symm.trans taken
  | inside legal read =>
    rcases legal.taken_cases (Nat.le.intro read.symm) taken with
      ⟨_, -, pending, -⟩ | ⟨conversion, digit, rfl, completed, -⟩ | ⟨percent, -⟩
    · cases pending
    · cases completed
      refine ⟨_, legal.clause digit conversion, Stem.field_clause digit conversion, rfl, ?_⟩
      rw [Stem.text_clause, Text.byteCount_append, Text.byteCount_singleton, Span.size, read]
      dsimp only
      omega
    · cases percent

end Scanner

namespace Moment

variable {σ : Type} [Sink σ] {moment : Moment σ}

theorem Of.abreast {source : String} {first : σ} (h : Of source first moment) :
    moment.scanner.Abreast moment.offset := by
  induction h with
  | refl => exact .outside _ _
  | tail _ advances ih =>
    cases advances with
    | writes => exact ih
    | reads taken => exact ih.advance taken

end Moment

end BraceTemplate
