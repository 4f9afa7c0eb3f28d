import BraceTemplate.Capacity
import BraceTemplate.Proofs.Denotation
import BraceTemplate.Proofs.Expansion
import BraceTemplate.Proofs.FixedBuffer

/-! Conversion into buffers. A buffer that has room for all that is written gives what the growing
conversion gives, also where the text is refused, and every other buffer is reported as too small. -/
namespace BraceTemplate

/-- The bytes that are written for `source` where there is room for all of them, before the conversion
ends or meets its fault. -/
def writtenBytes (source : String) : Nat := ((transcode source).attempt ByteCount.zero).2.count

/-- The conversion of `source` into a new buffer of `capacity` bytes. -/
def convertSized (source : String) (capacity : Nat) : Result FixedBuffer :=
  (convertInto source (zeroBytes capacity)).1.map fun _ => (convertInto source (zeroBytes capacity)).2

theorem size_zeroBytes (capacity : Nat) : (zeroBytes capacity).size = capacity := Array.size_replicate

variable {source : String} {items : List Item} {ending : Ending}

namespace Reading

theorem writtenBytes (h : Reading source.toList items ending) :
    writtenBytes source = Text.byteCount (items.flatMap Item.template) := by
  rw [BraceTemplate.writtenBytes, h.attempt ByteCount.unbounded]
  exact Nat.zero_add _

theorem estimate (h : Reading source.toList items ending) :
    estimateCapacity source .exact = (Result.ofError h.outcome).map fun _ => BraceTemplate.writtenBytes source := by
  rw [estimateCapacity, h.run ByteCount.unbounded, h.writtenBytes]
  cases h.outcome with
  | error _ => rfl
  | ok _ => simp [Result.ofError, Except.map, bind, Except.bind, ByteCount.zero]

/-- What is written into a buffer that has room for the templates of all items. -/
theorem attempt_of_le (h : Reading source.toList items ending) {buffer : FixedBuffer}
    (room : buffer.size + BraceTemplate.writtenBytes source ≤ buffer.capacity) :
    ∃ next, (BraceTemplate.transcode source).attempt buffer = (Result.ofError h.outcome, next) ∧
      buffer.Extends (String.ofList (items.flatMap Item.template)) next := by
  have output := Item.output_flatMap_chunks h.items_legal
  rw [h.writtenBytes, ← output] at room
  rw [h.transcode, ← output]
  exact FixedBuffer.attempt_of_le room h.outcome

/-- What is written into a buffer without that room ends in front of the first piece that does not fit. -/
theorem attempt_of_lt (h : Reading source.toList items ending) {buffer : FixedBuffer}
    (full : buffer.capacity < buffer.size + BraceTemplate.writtenBytes source) :
    ∃ front piece back next, (items.flatMap Item.chunks).flatMap Chunk.pieces = front ++ piece :: back ∧
      buffer.Extends (String.join front) next ∧ buffer.capacity < next.size + piece.utf8ByteSize ∧
      (BraceTemplate.transcode source).attempt buffer =
        (.error (.format (.capacityExceeded buffer.capacity (next.size + piece.utf8ByteSize))), next) := by
  rw [h.writtenBytes, ← Item.output_flatMap_chunks h.items_legal] at full
  rw [h.transcode]
  exact FixedBuffer.attempt_of_lt full h.outcome

theorem convertInto_of_le (h : Reading source.toList items ending) {storage : ByteArray}
    (room : BraceTemplate.writtenBytes source ≤ storage.size) :
    ∃ next, convertInto source storage = (Result.ofError h.outcome, next) ∧
      (FixedBuffer.over storage).Extends (String.ofList (items.flatMap Item.template)) next := by
  apply h.attempt_of_le
  simpa [FixedBuffer.over, FixedBuffer.capacity] using room

/-- Storage without that room is found too small before the ending is reached. What the refused piece
would have needed is more than there is and no more than is written in all. -/
theorem convertInto_of_lt (h : Reading source.toList items ending) {storage : ByteArray}
    (full : storage.size < BraceTemplate.writtenBytes source) :
    ∃ required next, convertInto source storage =
        (.error (.format (.capacityExceeded storage.size required)), next) ∧ next.capacity = storage.size ∧
      storage.size < required ∧ required ≤ BraceTemplate.writtenBytes source := by
  have exceeds : (FixedBuffer.over storage).capacity <
      (FixedBuffer.over storage).size + BraceTemplate.writtenBytes source := by
    simpa [FixedBuffer.over, FixedBuffer.capacity] using full
  obtain ⟨front, piece, back, next, split, laid, small, refused⟩ := h.attempt_of_lt exceeds
  refine ⟨next.size + piece.utf8ByteSize, next, refused, laid.capacity, small, ?_⟩
  · have held := laid.size_eq
    rw [h.writtenBytes, ← Item.output_flatMap_chunks h.items_legal, ← Text.utf8ByteSize_ofList,
      ← Chunk.join_pieces, split, String.join_append, String.join_cons, String.utf8ByteSize_append,
      String.utf8ByteSize_append, held]
    omega

/-- A text is refused for what it says only. -/
theorem isInputError (h : Reading source.toList items ending) {error : FormatError}
    (refused : h.outcome = .error error) : error.isInputError := by
  cases ending with
  | complete => cases refused
  | unterminated stem =>
    cases refused
    rfl
  | refused stem c rest =>
    cases refused
    unfold Stem.refusal
    repeat' split
    all_goals rfl

end Reading

theorem Item.Spell.estimate (h : Item.Spell items source) :
    estimateCapacity source .exact = .ok (Text.byteCount (items.flatMap Item.template)) := by
  rw [h.reading.estimate, h.reading.writtenBytes]
  rfl

/-- The exact policy counts what is written for a text that is converted. -/
theorem estimate_exact (source : String) :
    estimateCapacity source .exact = (convert source).map fun _ => writtenBytes source := by
  obtain ⟨items, ending, reading⟩ := exists_reading source.toList
  rw [reading.estimate, reading.convert]
  cases reading.outcome <;> rfl

private theorem writtenBytes_le (source : String) : writtenBytes source ≤ 2 * source.utf8ByteSize := by
  obtain ⟨items, ending, reading⟩ := exists_reading source.toList
  have bound := Item.byteCount_flatMap_template_le reading.items_legal
  rw [reading.writtenBytes, ← Text.byteCount_toList, reading.spelled, Text.byteCount_append]
  omega

/-- A buffer that all written bytes fit into ends up with what the growing conversion gives. -/
theorem convertSized_of_le {capacity : Nat} (room : writtenBytes source ≤ capacity) :
    (convertSized source capacity).map FixedBuffer.text = convert source ∧
      ∀ buffer, convertSized source capacity = .ok buffer →
        buffer.capacity = capacity ∧ buffer.size = writtenBytes source ∧
          buffer.size = buffer.text.utf8ByteSize := by
  obtain ⟨items, ending, reading⟩ := exists_reading source.toList
  rw [← size_zeroBytes capacity] at room
  obtain ⟨next, conversion, laid⟩ := reading.convertInto_of_le room
  have size : next.size = writtenBytes source := by
    rw [laid.size_eq, reading.writtenBytes, Text.utf8ByteSize_ofList]
  have whole : next.capacity = capacity := laid.capacity.trans (size_zeroBytes capacity)
  rw [convertSized, conversion, reading.convert]
  cases reading.outcome with
  | error error => exact ⟨rfl, fun buffer ok => nomatch ok⟩
  | ok _ =>
    refine ⟨congrArg Except.ok laid.text_eq, ?_⟩
    intro buffer ok
    obtain rfl : next = buffer := Except.ok.inj ok
    refine ⟨whole, size, ?_⟩
    rw [laid.text_eq, laid.size_eq]

theorem convertSized_of_lt {capacity : Nat} (full : capacity < writtenBytes source) :
    ∃ required, convertSized source capacity = .error (.format (.capacityExceeded capacity required)) := by
  obtain ⟨items, ending, reading⟩ := exists_reading source.toList
  rw [← size_zeroBytes capacity] at full
  obtain ⟨required, next, conversion, -⟩ := reading.convertInto_of_lt full
  rw [size_zeroBytes] at conversion
  refine ⟨required, ?_⟩
  rw [convertSized, conversion]
  rfl

theorem convert_ne_capacityExceeded (source : String) (capacity required : Nat) :
    convert source ≠ .error (.format (.capacityExceeded capacity required)) := by
  obtain ⟨items, ending, reading⟩ := exists_reading source.toList
  intro refused
  obtain ⟨error, outcome, same⟩ := reading.refused_iff.mp refused
  have input := reading.isInputError outcome
  cases same
  cases input

/-- A buffer that is too small for all written bytes is the only one that is reported. -/
theorem convertSized_eq_capacityExceeded_iff (source : String) (capacity : Nat) :
    (∃ limit required, convertSized source capacity = .error (.format (.capacityExceeded limit required))) ↔
      capacity < writtenBytes source := by
  constructor
  · rintro ⟨limit, required, refused⟩
    apply Nat.lt_of_not_le
    intro room
    apply convert_ne_capacityExceeded source limit required
    rw [← (convertSized_of_le room).1, refused]
    rfl
  · intro full
    obtain ⟨required, refused⟩ := convertSized_of_lt full
    exact ⟨capacity, required, refused⟩

theorem convertFixed_hint (source : String) (hint : Nat) (policy : CapacityPolicy) :
    convertFixed source (some hint) policy =
      convertSized source (min hint (scaleByteCount source.utf8ByteSize 2)) := rfl

theorem convertFixed_policy {policy : CapacityPolicy} {capacity : Nat}
    (h : estimateCapacity source policy = .ok capacity) :
    convertFixed source none policy = convertSized source capacity := by
  rw [convertFixed, h]
  rfl

private theorem scaleByteCount_two {count : Nat} (h : count < 2 ^ 63) : scaleByteCount count 2 = 2 * count := by
  rw [scaleByteCount, maxByteCount, UInt64.size]
  omega

/-- Every policy leaves room for all that is written, where it chooses a capacity at all. -/
theorem writtenBytes_le_estimate (h : source.utf8ByteSize < 2 ^ 63) {policy : CapacityPolicy} {capacity : Nat}
    (chosen : estimateCapacity source policy = .ok capacity) : writtenBytes source ≤ capacity := by
  have bound := writtenBytes_le source
  cases policy with
  | exact =>
    rw [estimate_exact] at chosen
    cases grown : convert source with
    | error failure =>
      rw [grown] at chosen
      cases chosen
    | ok out =>
      rw [grown] at chosen
      exact Nat.le_of_eq (Except.ok.inj chosen)
  | expansionBound =>
    obtain rfl := Except.ok.inj chosen
    rw [scaleByteCount_two h]
    exact bound
  | legacy =>
    obtain rfl := Except.ok.inj chosen
    rw [scaleByteCount, maxByteCount, UInt64.size]
    split <;> omega

/-- A policy that chooses no capacity reports what the growing conversion reports. -/
theorem convertFixed_of_estimate_error {policy : CapacityPolicy} {failure : Failure}
    (h : estimateCapacity source policy = .error failure) :
    convertFixed source none policy = .error failure ∧ convert source = .error failure := by
  refine ⟨by rw [convertFixed, h]; rfl, ?_⟩
  cases policy with
  | exact =>
    rw [estimate_exact] at h
    exact Result.map_eq_error_iff.mp h
  | expansionBound | legacy => cases h

theorem convertFixed_none (h : source.utf8ByteSize < 2 ^ 63) (policy : CapacityPolicy) :
    (convertFixed source none policy).map FixedBuffer.text = convert source ∧
      ∀ buffer, convertFixed source none policy = .ok buffer →
        buffer.size = buffer.text.utf8ByteSize ∧ buffer.size ≤ buffer.capacity := by
  cases chosen : estimateCapacity source policy with
  | ok capacity =>
    obtain ⟨same, sizes⟩ := convertSized_of_le (writtenBytes_le_estimate h chosen)
    rw [convertFixed_policy chosen]
    refine ⟨same, ?_⟩
    intro buffer ok
    exact ⟨(sizes buffer ok).2.2, buffer.size_le⟩
  | error failure =>
    obtain ⟨fixed, grown⟩ := convertFixed_of_estimate_error chosen
    rw [fixed, grown]
    refine ⟨rfl, ?_⟩
    intro buffer ok
    cases ok

/-- Capping a hint changes nothing but buffers that are too large. -/
private theorem min_hint_lt_iff (h : source.utf8ByteSize < 2 ^ 63) (hint : Nat) :
    min hint (scaleByteCount source.utf8ByteSize 2) < writtenBytes source ↔ hint < writtenBytes source := by
  have bound := writtenBytes_le source
  rw [scaleByteCount_two h]
  omega

theorem convertFixed_some_of_le (h : source.utf8ByteSize < 2 ^ 63) {hint : Nat}
    (room : writtenBytes source ≤ hint) (policy : CapacityPolicy) :
    (convertFixed source (some hint) policy).map FixedBuffer.text = convert source := by
  have fits : writtenBytes source ≤ min hint (scaleByteCount source.utf8ByteSize 2) := by
    apply Nat.le_of_not_lt
    rw [min_hint_lt_iff h]
    exact Nat.not_lt_of_le room
  exact (convertSized_of_le fits).1

/-- A hint that is exceeded is no more than the bound, so it is the capacity of the buffer. -/
theorem convertFixed_some_of_lt (h : source.utf8ByteSize < 2 ^ 63) {hint : Nat}
    (small : hint < writtenBytes source) (policy : CapacityPolicy) :
    ∃ required, convertFixed source (some hint) policy =
      .error (.format (.capacityExceeded hint required)) := by
  have bound := writtenBytes_le source
  have capped : min hint (scaleByteCount source.utf8ByteSize 2) = hint := by
    rw [scaleByteCount_two h]
    omega
  rw [convertFixed_hint, capped]
  exact convertSized_of_lt small

/-- A buffer that is sized here is never too small. A hint is reported as exceeded exactly if it is
below the bytes that are written, and as the hint itself although no buffer exceeds the bound. -/
theorem convertFixed_sizing (source : String) (h : source.utf8ByteSize < 2 ^ 63) :
    (∀ policy,
      (convertFixed source none policy).map FixedBuffer.text = convert source ∧
      (∀ limit required,
        convertFixed source none policy ≠ .error (.format (.capacityExceeded limit required))) ∧
      ∀ buffer, convertFixed source none policy = .ok buffer →
        buffer.size = buffer.text.utf8ByteSize ∧ buffer.size ≤ buffer.capacity) ∧
    ∀ hint policy,
      ((∃ limit required,
          convertFixed source (some hint) policy = .error (.format (.capacityExceeded limit required))) ↔
        hint < writtenBytes source) ∧
      (∀ limit required,
        convertFixed source (some hint) policy = .error (.format (.capacityExceeded limit required)) →
          limit = hint) ∧
      (writtenBytes source ≤ hint →
        (convertFixed source (some hint) policy).map FixedBuffer.text = convert source) := by
  constructor
  · intro policy
    obtain ⟨same, sizes⟩ := convertFixed_none h policy
    refine ⟨same, ?_, sizes⟩
    intro limit required refused
    rw [refused] at same
    exact convert_ne_capacityExceeded source limit required same.symm
  · intro hint policy
    have exceeded := convertSized_eq_capacityExceeded_iff source (min hint (scaleByteCount source.utf8ByteSize 2))
    rw [min_hint_lt_iff h, ← convertFixed_hint source hint policy] at exceeded
    refine ⟨exceeded, ?_, ?_⟩
    · intro limit required refused
      have small := exceeded.mp ⟨limit, required, refused⟩
      obtain ⟨other, reported⟩ := convertFixed_some_of_lt h small policy
      rw [refused] at reported
      injection reported with failure
      injection failure with error
      injection error
    · intro room
      exact convertFixed_some_of_le h room policy

/-- A hint is reported that is one byte below what is written before a fault. -/
theorem convertFixed_sizing_of_refused :
    (convertFixed "%05d%q" none .legacy).map FixedBuffer.text = convert "%05d%q" ∧
      ∃ limit required,
        convertFixed "%05d%q" (some 6) .exact = .error (.format (.capacityExceeded limit required)) := by
  obtain ⟨sized, hinted⟩ := convertFixed_sizing "%05d%q" (by decide)
  exact ⟨(sized .legacy).1, (hinted 6 .exact).1.mpr (by decide)⟩

end BraceTemplate
