import BraceTemplate.Proofs.Agreement
import BraceTemplate.Proofs.Moment

/-! The bound on the output at every moment of a conversion, the texts that attain it, and what the capacities
leave over. -/
namespace BraceTemplate

/-- An unbounded destination whose size is the number of bytes that it has taken. -/
structure Sink.Measured {σ : Type} [Sink σ] (append : σ → List Char → σ) : Prop extends Sink.Unbounded append where
  size : ∀ sink chars, Sink.size (append sink chars) = Sink.size sink + Text.byteCount chars

private theorem TextSink.measured :
    Sink.Measured fun (sink : TextSink) chars => ⟨sink.text ++ String.ofList chars⟩ where
  toUnbounded := TextSink.unbounded
  size sink chars := by
    change (sink.text ++ String.ofList chars).utf8ByteSize = sink.text.utf8ByteSize + Text.byteCount chars
    rw [String.utf8ByteSize_append, Text.utf8ByteSize_ofList]

private theorem ByteCount.measured :
    Sink.Measured fun (sink : ByteCount) chars => ⟨sink.count + Text.byteCount chars⟩ where
  toUnbounded := ByteCount.unbounded
  size _ _ := rfl

namespace Moment

variable {σ : Type} [Sink σ] {append : σ → List Char → σ} {moment : Moment σ} {source : String} {first : σ}

/-- Together with what is pending, a destination holds the template of the text that has been read, which is at
most twice as long. -/
theorem Of.size_le (h : Of source first moment) (measured : Sink.Measured append) (empty : Sink.size first = 0) :
    Sink.size moment.sink ≤ 2 * moment.offset := by
  obtain ⟨read, -, behind⟩ := h.exists_behind measured.toUnbounded
  obtain ⟨items, ending, reading⟩ := exists_reading (String.ofList read).toList
  have output := behind.output_eq measured.toUnbounded
  rw [reading.attempt measured.toUnbounded] at output
  have sizes := congrArg Sink.size output
  rw [measured.size, measured.size, empty, Nat.zero_add] at sizes
  have spelled := congrArg Text.byteCount reading.spelled
  rw [String.toList_ofList, Text.byteCount_append, ← behind.offset] at spelled
  have bound := Item.byteCount_flatMap_template_le reading.items_legal
  omega

/-- What is done from a moment on is the rest of the conversion. -/
private theorem Of.transcode_eq (h : Of source first moment) (unbounded : Sink.Unbounded append) :
    transcode source first = moment.remaining moment.sink := by
  obtain ⟨read, split, behind⟩ := h.exists_behind unbounded
  rw [transcode, split, behind.remaining]

/-- A moment without a next one is the end of the conversion. -/
theorem Of.advances_or_ends (h : Of source first moment) (unbounded : Sink.Unbounded append) :
    (∃ next, moment.Advances next) ∨ ((transcode source).attempt first).2 = moment.sink := by
  rw [Write.attempt, h.transcode_eq unbounded]
  exact moment.advances_or_ends unbounded

private theorem Of.block_le (h : Of source first moment) {c : Char} {found : Specifier} {next : Scanner}
    (taken : moment.scanner.step moment.offset c = .ok (.specifier found, next)) :
    (Placeholder.text found.conversion.destination found.field).utf8ByteSize ≤ 2 * found.span.size := by
  obtain ⟨clause, legal, field, conversion, size⟩ := h.abreast.exists_clause taken
  rw [← field, ← conversion, ← size, Placeholder.text_eq, Text.utf8ByteSize_ofList, legal.output_chunks]
  exact legal.byteCount_template_le

end Moment

variable {source : String}

private theorem flatMap_text_zeroFilled (conversions : List Conversion) :
    (conversions.map fun conversion => Item.clause (.zeroFilled conversion)).flatMap Item.text =
      conversions.flatMap fun conversion => ['%', '0', conversion.char] := by
  rw [List.flatMap_map]
  rfl

private theorem Clause.legal_zeroFilled (conversion : Conversion) : (zeroFilled conversion).Legal where
  flags_nodup := List.pairwise_singleton _ _
  width_head := nofun
  width_lt := (by decide : 0 < UInt32.size)
  precision_ne_nil := nofun
  precision_lt := nofun

/-- Only a text that is converted has an exact estimate, and nothing but its template is counted. -/
theorem estimate_exact_eq_ok {exact : Nat} (counted : estimateCapacity source .exact = .ok exact) :
    exact = writtenBytes source ∧ ∃ out, convert source = .ok out := by
  rw [estimate_exact] at counted
  cases converted : convert source with
  | error failure =>
    rw [converted] at counted
    cases counted
  | ok out =>
    rw [converted] at counted
    exact ⟨(Except.ok.inj counted).symm, out, rfl⟩

private theorem estimate_exact_eq_two_mul_iff :
    estimateCapacity source .exact = .ok (2 * source.utf8ByteSize) ↔
      ∃ conversions : List Conversion,
        source.toList = conversions.flatMap fun conversion => ['%', '0', conversion.char] := by
  constructor
  · intro tight
    obtain ⟨-, out, converted⟩ := estimate_exact_eq_ok tight
    obtain ⟨items, spell, -⟩ := exists_spell_of_convert converted
    rw [spell.estimate, ← Text.byteCount_toList, spell.spelled] at tight
    obtain ⟨conversions, rfl⟩ := (Item.byteCount_flatMap_template_eq_iff spell.legal).mp (Except.ok.inj tight)
    exact ⟨conversions, by rw [spell.spelled, flatMap_text_zeroFilled]⟩
  · rintro ⟨conversions, spelled⟩
    have spell : Item.Spell (conversions.map fun conversion => .clause (.zeroFilled conversion)) source := by
      refine ⟨?_, by rw [spelled, flatMap_text_zeroFilled]⟩
      intro item member
      obtain ⟨conversion, -, rfl⟩ := List.mem_map.mp member
      exact Clause.legal_zeroFilled conversion
    rw [spell.estimate, ← Text.byteCount_toList, spell.spelled]
    exact congrArg Except.ok ((Item.byteCount_flatMap_template_eq_iff spell.legal).mpr ⟨conversions, rfl⟩)

/-- The exact estimate is the smallest. -/
theorem estimate_exact_le (short : source.utf8ByteSize < 2 ^ 63) {exact : Nat}
    (counted : estimateCapacity source .exact = .ok exact) :
    ∃ bound legacy, estimateCapacity source .expansionBound = .ok bound ∧
      estimateCapacity source .legacy = .ok legacy ∧ exact ≤ bound ∧ exact ≤ legacy := by
  obtain ⟨bound, bounded⟩ : ∃ bound, estimateCapacity source .expansionBound = .ok bound := ⟨_, rfl⟩
  obtain ⟨legacy, scaled⟩ : ∃ legacy, estimateCapacity source .legacy = .ok legacy := ⟨_, rfl⟩
  rw [(estimate_exact_eq_ok counted).1]
  exact ⟨bound, legacy, bounded, scaled, writtenBytes_le_estimate short bounded,
    writtenBytes_le_estimate short scaled⟩

/-- At every moment of a conversion into an unbounded destination, and so at its end, the output is at most twice
as long as what has been read, and so is the placeholder of every clause that is completed. For a whole text the
bound is attained exactly where every clause asks for zeros in front and for nothing else, without literal text
between them. So for all texts of less than 2^63 bytes the exact estimate is not above the others. -/
theorem expansion_bound (source : String) :
    (∀ (σ : Type) [Sink σ] (append : σ → List Char → σ), Sink.Measured append →
      ∀ first : σ, Sink.size first = 0 → ∀ moment : Moment σ, moment.Of source first →
        Sink.size moment.sink ≤ 2 * moment.offset ∧
        (∃ read, source.toList = read ++ moment.rest ∧ moment.offset = Text.byteCount read) ∧
        transcode source first = moment.remaining moment.sink ∧
        ((∃ next, moment.Advances next) ∨ ((transcode source).attempt first).2 = moment.sink) ∧
        ∀ c found next, moment.scanner.step moment.offset c = .ok (.specifier found, next) →
          (Placeholder.text found.conversion.destination found.field).utf8ByteSize ≤ 2 * found.span.size) ∧
    (estimateCapacity source .exact = .ok (2 * source.utf8ByteSize) ↔
      ∃ conversions : List Conversion,
        source.toList = conversions.flatMap fun conversion => ['%', '0', conversion.char]) ∧
    (source.utf8ByteSize < 2 ^ 63 → ∀ exact, estimateCapacity source .exact = .ok exact →
      ∃ bound legacy, estimateCapacity source .expansionBound = .ok bound ∧
        estimateCapacity source .legacy = .ok legacy ∧ exact ≤ bound ∧ exact ≤ legacy) := by
  refine ⟨?_, estimate_exact_eq_two_mul_iff, fun short _ => estimate_exact_le short⟩
  intro σ _ append measured first empty moment reached
  obtain ⟨read, split, behind⟩ := reached.exists_behind measured.toUnbounded
  exact ⟨reached.size_le measured empty, ⟨read, split, behind.offset⟩, reached.transcode_eq measured.toUnbounded,
    reached.advances_or_ends measured.toUnbounded, fun _ _ _ => reached.block_le⟩

/-- Both destinations without limit are bounded, and two clauses of the one shape attain the bound. -/
theorem expansion_bound_of_zero_filled :
    (∀ moment : Moment TextSink, moment.Of "%0d%0x" .empty → Sink.size moment.sink ≤ 2 * moment.offset) ∧
    (∀ moment : Moment ByteCount, moment.Of "%0d%0x" .zero → Sink.size moment.sink ≤ 2 * moment.offset) ∧
    estimateCapacity "%0d%0x" .exact = .ok 12 ∧
    ∃ bound legacy, estimateCapacity "%0d%0x" .expansionBound = .ok bound ∧
      estimateCapacity "%0d%0x" .legacy = .ok legacy ∧ 12 ≤ bound ∧ 12 ≤ legacy := by
  obtain ⟨moments, tight, smallest⟩ := expansion_bound "%0d%0x"
  have exact : estimateCapacity "%0d%0x" .exact = .ok 12 := tight.mpr ⟨[.signedDecimal, .hex], rfl⟩
  refine ⟨fun moment reached => ?_, fun moment reached => ?_, exact, smallest (by decide) 12 exact⟩
  · exact (moments _ _ TextSink.measured _ rfl moment reached).1
  · exact (moments _ _ ByteCount.measured _ rfl moment reached).1

end BraceTemplate
