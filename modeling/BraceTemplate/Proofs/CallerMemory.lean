import BraceTemplate.CInterface
import BraceTemplate.Proofs.Threshold
import BraceTemplate.Proofs.ZeroByte

/-! Conversion for C callers. The memory of the caller is left with a text and its zero byte at the front, the
template or an empty text, and it is the estimate that says how much memory a template needs. -/
namespace BraceTemplate.CInterface

/-- A text as a caller passes it: its bytes, a zero byte, and the memory behind. -/
def terminated (text : String) (behind : ByteArray) : ByteArray := text.toByteArray.push 0 ++ behind

/-- `after` is the memory `before` with `text` and a zero byte written at its front. -/
structure Holds (text : String) (before after : ByteArray) : Prop where
  size : after.size = before.size
  written : after.extract 0 text.utf8ByteSize = text.toByteArray
  free : 0 ∉ (after.extract 0 text.utf8ByteSize).data.toList
  closed : after[text.utf8ByteSize]? = some 0
  rest : after.extract (text.utf8ByteSize + 1) after.size = before.extract (text.utf8ByteSize + 1) before.size
  read : readText? (some after) = some text

private theorem getElem?_push_append (bytes behind : ByteArray) (byte : UInt8) :
    (bytes.push byte ++ behind)[bytes.size]? = some byte := by
  have front : bytes.size < (bytes.push byte).size := by
    rw [ByteArray.size_push]
    omega
  have inside : bytes.size < (bytes.push byte ++ behind).size := by
    rw [ByteArray.size_append]
    omega
  rw [getElem?_pos (bytes.push byte ++ behind) bytes.size inside, ByteArray.getElem_append_left front]
  exact congrArg some Array.getElem_push_eq

private theorem getElem?_set {memory : ByteArray} {offset : Nat} (h : offset < memory.size) (byte : UInt8) :
    (memory.set offset byte h)[offset]? = some byte := by
  have inside : offset < (memory.set offset byte h).size := by
    rw [← ByteArray.size_data, ByteArray.data_set, Array.size_set]
    exact h
  rw [getElem?_pos (memory.set offset byte h) offset inside, ByteArray.getElem_eq_getElem_data]
  simp

section Terminated

variable {text : String} {behind : ByteArray}

private theorem size_terminated : (terminated text behind).size = text.utf8ByteSize + 1 + behind.size := by
  rw [terminated, ByteArray.size_append, ByteArray.size_push, String.size_toByteArray]

private theorem beforeZero_terminated (free : '\x00' ∉ text.toList) :
    beforeZero (terminated text behind) = text.toByteArray := by
  have bytes : (terminated text behind).data.toList = text.toByteArray.data.toList ++ 0 :: behind.data.toList := by
    simp [terminated]
  have plain : ∀ byte ∈ text.toByteArray.data.toList, (byte != 0) = true := by
    intro byte member
    rw [bne_iff_ne]
    rintro rfl
    exact Text.zero_notMem_toByteArray free member
  rw [beforeZero, bytes, List.takeWhile_append_of_pos plain]
  simp

/-- A text is read up to its zero byte, whatever is behind it. -/
theorem readText?_terminated (free : '\x00' ∉ text.toList) : readText? (some (terminated text behind)) = some text := by
  rw [readText?, Option.bind_some, beforeZero_terminated free, Text.fromUTF8?_toByteArray]

private theorem holds_terminated (free : '\x00' ∉ text.toList) {before : ByteArray}
    (room : text.utf8ByteSize < before.size) :
    Holds text before (terminated text (before.extract (text.utf8ByteSize + 1) before.size)) := by
  generalize tail : before.extract (text.utf8ByteSize + 1) before.size = behind
  have length : behind.size = before.size - (text.utf8ByteSize + 1) := by
    rw [← tail, ByteArray.size_extract, Nat.min_self]
  have size : (terminated text behind).size = before.size := by
    rw [size_terminated, length]
    omega
  have front : (text.toByteArray.push 0).size = text.utf8ByteSize + 1 := by
    rw [ByteArray.size_push, String.size_toByteArray]
  have written : (terminated text behind).extract 0 text.utf8ByteSize = text.toByteArray := by
    rw [terminated, ← ByteArray.append_toByteArray_singleton, ByteArray.append_assoc,
      ByteArray.extract_append_eq_left String.size_toByteArray.symm]
  refine ⟨size, written, ?_, ?_, ?_, readText?_terminated free⟩
  · rw [written]
    exact Text.zero_notMem_toByteArray free
  · exact String.size_toByteArray ▸ getElem?_push_append text.toByteArray behind 0
  · rw [tail]
    exact ByteArray.extract_append_eq_right front.symm (by rw [size_terminated, front])

end Terminated

private theorem terminate?_of_lt {memory : ByteArray} {offset : Nat} (h : offset < memory.size) :
    terminate? memory offset = some (memory.set offset 0 h) := dif_pos h

/-- The memory around a buffer that is over all of it but the last byte. -/
def around (memory : ByteArray) (buffer : FixedBuffer) : ByteArray :=
  buffer.storage ++ memory.extract (memory.size - 1) memory.size

section WriteText

variable {source text : String} {memory : ByteArray} {buffer : FixedBuffer}

private theorem capacity_over (memory : ByteArray) :
    (FixedBuffer.over (memory.extract 0 (memory.size - 1))).capacity = memory.size - 1 := by
  rw [FixedBuffer.capacity, FixedBuffer.over, ByteArray.size_extract]
  omega

private theorem size_around (capacity : buffer.capacity = memory.size - 1) :
    (around memory buffer).size = memory.size := by
  have storage : buffer.storage.size = memory.size - 1 := capacity
  rw [around, ByteArray.size_append, ByteArray.size_extract, storage]
  omega

/-- A conversion leaves what it has not written as it was. -/
private theorem around_eq (laid : (FixedBuffer.over (memory.extract 0 (memory.size - 1))).Extends text buffer) :
    around memory buffer = text.toByteArray ++ memory.extract text.utf8ByteSize memory.size := by
  have size := laid.size_eq
  have storage : buffer.storage.size = memory.size - 1 := laid.capacity.trans (capacity_over memory)
  have inside : buffer.size ≤ memory.size - 1 := storage ▸ buffer.size_le
  have front : buffer.storage.extract 0 buffer.size = text.toByteArray := laid.written_eq
  have rest : buffer.storage.extract buffer.size (memory.size - 1) = memory.extract buffer.size (memory.size - 1) := by
    have kept := laid.rest
    rw [laid.capacity, capacity_over] at kept
    rw [kept, FixedBuffer.over, ByteArray.extract_extract, Nat.zero_add, Nat.zero_add, Nat.min_self]
  have halves : buffer.storage = text.toByteArray ++ memory.extract buffer.size (memory.size - 1) := by
    rw [← front, ← rest, ← ByteArray.extract_eq_extract_append_extract _ (Nat.zero_le _) inside, ← storage,
      ByteArray.extract_zero_size]
  rw [around, halves, ByteArray.append_assoc,
    ← ByteArray.extract_eq_extract_append_extract _ inside (Nat.sub_le _ _), size]

/-- A zero byte behind the text that has been written ends it. -/
private theorem set_around (laid : (FixedBuffer.over (memory.extract 0 (memory.size - 1))).Extends text buffer)
    (inside : buffer.size < (around memory buffer).size) (whole : (around memory buffer).size = memory.size) :
    (around memory buffer).set buffer.size 0 inside =
      terminated text (memory.extract (text.utf8ByteSize + 1) memory.size) := by
  have size := laid.size_eq
  have front : buffer.size = text.toByteArray.size := size
  have total : memory.size = buffer.size + (memory.size - buffer.size) := by omega
  have stop : min (text.utf8ByteSize + (memory.size - buffer.size)) memory.size = memory.size := by omega
  have rest : (around memory buffer).extract (buffer.size + 1) memory.size =
      memory.extract (text.utf8ByteSize + 1) memory.size := by
    rw [around_eq laid, total, ByteArray.extract_append_size_add' front, ← total, ByteArray.extract_extract, stop]
  rw [ByteArray.set_eq_push_extract_append_extract, whole, rest, around_eq laid,
    ByteArray.extract_append_eq_left front, terminated]

private theorem writeText_of_ok (whole : memory.size ≠ 0)
    (converted : BraceTemplate.convertInto source (memory.extract 0 (memory.size - 1)) = (.ok (), buffer))
    (laid : (FixedBuffer.over (memory.extract 0 (memory.size - 1))).Extends text buffer) :
    writeText source memory =
      (byteCount text.utf8ByteSize, terminated text (memory.extract (text.utf8ByteSize + 1) memory.size)) := by
  have capacity := laid.capacity.trans (capacity_over memory)
  have total := size_around capacity
  have inside : buffer.size < (around memory buffer).size := by
    have room : buffer.size ≤ buffer.capacity := buffer.size_le
    omega
  have size := laid.size_eq
  rw [writeText, converted, ← set_around laid inside total, ← size]
  dsimp only
  rw [← around, terminate?_of_lt inside]

/-- A conversion that fails leaves an empty text. -/
private theorem writeText_of_error (whole : memory.size ≠ 0) {error : FormatError}
    (refused : BraceTemplate.convertInto source (memory.extract 0 (memory.size - 1)) = (.error (.format error), buffer))
    (capacity : buffer.capacity = memory.size - 1) :
    ∃ after, writeText source memory = (status (.format error), after) ∧ after.size = memory.size ∧
      after[0]? = some 0 := by
  have size := size_around capacity
  have inside : 0 < (around memory buffer).size := by omega
  refine ⟨(around memory buffer).set 0 0 inside, ?_, ?_, getElem?_set inside 0⟩
  · rw [writeText, refused]
    dsimp only
    rw [← around, terminate?_of_lt inside]
  · rw [← ByteArray.size_data, ByteArray.data_set, Array.size_set]
    exact size

end WriteText

section Written

variable {source out : String} {failure : Failure} {memory : ByteArray}

private theorem writtenBytes_of_convert (ok : BraceTemplate.convert source = .ok out) :
    writtenBytes source = out.utf8ByteSize := by
  rw [eq_writtenText_of_convert ok, utf8ByteSize_writtenText]

private theorem status_of_convert (refused : BraceTemplate.convert source = .error failure) :
    status failure = malformedFormat := by
  obtain ⟨items, ending, reading⟩ := exists_reading source.toList
  obtain ⟨error, outcome, rfl⟩ := reading.refused_iff.mp refused
  rw [status, reading.isInputError outcome, if_pos rfl]

private theorem writeText_of_convert (whole : memory.size ≠ 0) (ok : BraceTemplate.convert source = .ok out)
    (room : writtenBytes source ≤ memory.size - 1) :
    writeText source memory =
      (byteCount out.utf8ByteSize, terminated out (memory.extract (out.utf8ByteSize + 1) memory.size)) := by
  obtain ⟨items, spell, -⟩ := exists_spell_of_convert ok
  have complete := spell.reading
  rw [← capacity_over memory] at room
  obtain ⟨next, conversion, laid⟩ := complete.convertInto_of_le room
  rw [← complete.writtenText, ← eq_writtenText_of_convert ok] at laid
  exact writeText_of_ok whole conversion laid

private theorem writeText_of_refused (whole : memory.size ≠ 0) (refused : BraceTemplate.convert source = .error failure)
    (room : writtenBytes source ≤ memory.size - 1) :
    ∃ after, writeText source memory = (malformedFormat, after) ∧ after.size = memory.size ∧ after[0]? = some 0 := by
  obtain ⟨items, ending, reading⟩ := exists_reading source.toList
  rw [← capacity_over memory] at room
  obtain ⟨next, conversion, laid⟩ := reading.convertInto_of_le room
  have reported := status_of_convert refused
  obtain ⟨error, outcome, rfl⟩ := reading.refused_iff.mp refused
  rw [outcome] at conversion
  rw [← reported]
  exact writeText_of_error whole conversion (laid.capacity.trans (capacity_over memory))

private theorem writeText_of_full (whole : memory.size ≠ 0) (full : memory.size - 1 < writtenBytes source) :
    ∃ after, writeText source memory = (noCapacity, after) ∧ after.size = memory.size ∧ after[0]? = some 0 := by
  obtain ⟨items, ending, reading⟩ := exists_reading source.toList
  rw [← capacity_over memory] at full
  obtain ⟨required, next, conversion, capacity, -⟩ := reading.convertInto_of_lt full
  exact writeText_of_error whole conversion (capacity.trans (capacity_over memory))

end Written

/-- What the conversion of `source` into the caller's memory comes to: the result, and the memory afterwards. -/
inductive Outcome (source : String) (memory : ByteArray) : Int → ByteArray → Prop where
  | noMemory (empty : memory.size = 0) : Outcome source memory noCapacity memory
  | full {after : ByteArray} (whole : memory.size ≠ 0) (full : memory.size - 1 < writtenBytes source)
    (size : after.size = memory.size) (closed : after[0]? = some 0) : Outcome source memory noCapacity after
  | refused {failure : Failure} {after : ByteArray} (whole : memory.size ≠ 0)
    (room : writtenBytes source ≤ memory.size - 1) (refused : BraceTemplate.convert source = .error failure)
    (size : after.size = memory.size) (closed : after[0]? = some 0) : Outcome source memory malformedFormat after
  | converted {out : String} (whole : memory.size ≠ 0) (room : writtenBytes source ≤ memory.size - 1)
    (ok : BraceTemplate.convert source = .ok out) :
    Outcome source memory (byteCount out.utf8ByteSize)
      (terminated out (memory.extract (out.utf8ByteSize + 1) memory.size))

private theorem convertInto_of_read {argument : Option ByteArray} {source : String}
    (read : readText? argument = some source) (memory : ByteArray) :
    convertInto argument (some memory) =
      if memory.size = 0 then (noCapacity, some memory)
      else ((writeText source memory).1, some (writeText source memory).2) := by
  unfold convertInto
  rw [read]

theorem exists_outcome {argument : Option ByteArray} {source : String} (read : readText? argument = some source)
    (memory : ByteArray) :
    ∃ result after, convertInto argument (some memory) = (result, some after) ∧
      Outcome source memory result after := by
  rw [convertInto_of_read read]
  by_cases empty : memory.size = 0
  · rw [if_pos empty]
    exact ⟨_, _, rfl, .noMemory empty⟩
  · rw [if_neg empty]
    refine ⟨_, _, rfl, ?_⟩
    rcases Nat.lt_or_ge (memory.size - 1) (writtenBytes source) with full | room
    · obtain ⟨after, result, size, closed⟩ := writeText_of_full empty full
      rw [result]
      exact .full empty full size closed
    · cases conversion : BraceTemplate.convert source with
      | error failure =>
        obtain ⟨after, result, size, closed⟩ := writeText_of_refused empty conversion room
        rw [result]
        exact .refused empty room conversion size closed
      | ok out =>
        rw [writeText_of_convert empty conversion room]
        exact .converted empty room conversion

private theorem byteCount_of_lt {n : Nat} (h : n < 2 ^ 63) : byteCount n = n := if_pos h

namespace Outcome

variable {source : String} {memory after : ByteArray} {result : Int}

theorem size_eq (h : Outcome source memory result after) : after.size = memory.size := by
  cases h with
  | noMemory => rfl
  | full _ _ size | refused _ _ _ size => exact size
  | converted whole room ok =>
    rw [writtenBytes_of_convert ok] at room
    rw [size_terminated, ByteArray.size_extract]
    omega

section Short

/-! A text that the memory has room for is not too long to be counted. -/
variable (short : ∀ out, BraceTemplate.convert source = .ok out → out.utf8ByteSize < memory.size →
  out.utf8ByteSize < 2 ^ 63)

include short

private theorem nonneg_iff (h : Outcome source memory result after) :
    0 ≤ result ↔ ∃ out, BraceTemplate.convert source = .ok out ∧ out.utf8ByteSize + 1 ≤ memory.size := by
  cases h with
  | noMemory empty => simp [noCapacity, empty]
  | full whole full =>
    have none (out : String) (ok : BraceTemplate.convert source = .ok out) : ¬ out.utf8ByteSize + 1 ≤ memory.size := by
      rw [← writtenBytes_of_convert ok]
      omega
    simpa [noCapacity] using none
  | refused _ _ refused => simp [malformedFormat, refused]
  | @converted out whole room ok =>
    have size := writtenBytes_of_convert ok
    rw [byteCount_of_lt (short out ok (by omega))]
    exact iff_of_true (by omega) ⟨out, ok, by omega⟩

private theorem noCapacity_iff (h : Outcome source memory result after) :
    result = noCapacity ↔ memory.size = 0 ∨ memory.size - 1 < writtenBytes source := by
  cases h with
  | noMemory empty => exact iff_of_true rfl (.inl empty)
  | full _ full => exact iff_of_true rfl (.inr full)
  | refused whole room => exact iff_of_false (by decide) (by omega)
  | @converted out whole room ok =>
    have size := writtenBytes_of_convert ok
    rw [byteCount_of_lt (short out ok (by omega)), noCapacity]
    exact iff_of_false (by omega) (by omega)

private theorem malformedFormat_iff (h : Outcome source memory result after) :
    result = malformedFormat ↔ 1 ≤ memory.size ∧ writtenBytes source ≤ memory.size - 1 ∧
      ∃ failure, BraceTemplate.convert source = .error failure := by
  cases h with
  | noMemory empty => exact iff_of_false (by decide) (by omega)
  | full _ full => exact iff_of_false (by decide) (by omega)
  | refused whole room refused => exact iff_of_true rfl ⟨by omega, room, _, refused⟩
  | @converted out whole room ok =>
    have size := writtenBytes_of_convert ok
    rw [byteCount_of_lt (short out ok (by omega)), malformedFormat]
    exact iff_of_false (by omega) (by simp [ok])

/-- A negative result leaves an empty text, if there is room for one. -/
private theorem closed_of_neg (h : Outcome source memory result after) (failed : result < 0) (whole : 1 ≤ memory.size) :
    after[0]? = some 0 := by
  cases h with
  | noMemory empty => omega
  | full _ _ _ closed | refused _ _ _ _ closed => exact closed
  | @converted out _ room ok =>
    have size := writtenBytes_of_convert ok
    rw [byteCount_of_lt (short out ok (by omega))] at failed
    omega

theorem holds (h : Outcome source memory result after) (free : '\x00' ∉ source.toList) {out : String}
    (ok : BraceTemplate.convert source = .ok out) (converted : 0 ≤ result) :
    result = out.utf8ByteSize ∧ Holds out memory after := by
  cases h with
  | noMemory empty | full | refused => exact absurd converted (by decide)
  | @converted other whole room same =>
    obtain rfl : other = out := Except.ok.inj (same.symm.trans ok)
    have size := writtenBytes_of_convert ok
    exact ⟨byteCount_of_lt (short other ok (by omega)), holds_terminated (zero_notMem_of_convert free ok) (by omega)⟩

end Short

end Outcome

section Estimate

variable {argument : Option ByteArray} {source out : String}

theorem estimate_of_read (read : readText? argument = some source) :
    estimate argument =
      match BraceTemplate.convert source with
      | .ok _ => byteCount (writtenBytes source + 1)
      | .error failure => status failure := by
  unfold estimate
  rw [read]
  dsimp only
  rw [estimate_exact]
  cases BraceTemplate.convert source <;> rfl

private theorem estimate_of_convert (read : readText? argument = some source)
    (ok : BraceTemplate.convert source = .ok out)
    (short : out.utf8ByteSize < 2 ^ 63 - 1) : estimate argument = out.utf8ByteSize + 1 := by
  rw [estimate_of_read read, ok, writtenBytes_of_convert ok]
  exact byteCount_of_lt (by omega)

theorem estimate_of_refused (read : readText? argument = some source) {failure : Failure}
    (refused : BraceTemplate.convert source = .error failure) : estimate argument = malformedFormat := by
  rw [estimate_of_read read, refused]
  exact status_of_convert refused

end Estimate

/-- The memory of a caller that passes a text without the zero character, where templates are not too long to
be counted. The estimate is the template with its zero byte. A conversion succeeds exactly if the text is
converted and the memory is no smaller than estimated; then the template stands in it, is read back from it,
and the memory behind its zero byte is as it was. It lacks capacity exactly if there is no room for what is
written before it ends or meets its fault, and any failure leaves an empty text where there is room for one. -/
theorem convertInto_frames_memory (source : String) (behind memory : ByteArray) (free : '\x00' ∉ source.toList)
    (short : ∀ out, BraceTemplate.convert source = .ok out → out.utf8ByteSize < 2 ^ 63 - 1) :
    (∀ out, BraceTemplate.convert source = .ok out →
      estimate (some (terminated source behind)) = out.utf8ByteSize + 1) ∧
    (∀ failure, BraceTemplate.convert source = .error failure →
      estimate (some (terminated source behind)) = malformedFormat) ∧
    ∃ result after, convertInto (some (terminated source behind)) (some memory) = (result, some after) ∧
      after.size = memory.size ∧
      (0 ≤ result ↔ (∃ out, BraceTemplate.convert source = .ok out) ∧
        estimate (some (terminated source behind)) ≤ memory.size) ∧
      (∀ out, BraceTemplate.convert source = .ok out → 0 ≤ result →
        result = out.utf8ByteSize ∧ Holds out memory after) ∧
      (result = noCapacity ↔ memory.size = 0 ∨ memory.size - 1 < writtenBytes source) ∧
      (result = malformedFormat ↔ 1 ≤ memory.size ∧ writtenBytes source ≤ memory.size - 1 ∧
        ∃ failure, BraceTemplate.convert source = .error failure) ∧
      (result < 0 → 1 ≤ memory.size → after[0]? = some 0) := by
  have read : readText? (some (terminated source behind)) = some source := readText?_terminated free
  have estimated (out : String) (ok : BraceTemplate.convert source = .ok out) := estimate_of_convert read ok (short out ok)
  obtain ⟨result, after, written, outcome⟩ := exists_outcome read memory
  have counted (out : String) (ok : BraceTemplate.convert source = .ok out) (_ : out.utf8ByteSize < memory.size) :
      out.utf8ByteSize < 2 ^ 63 := Nat.lt_of_lt_of_le (short out ok) (Nat.sub_le _ _)
  refine ⟨estimated, fun failure => estimate_of_refused read, result, after, written, outcome.size_eq, ?_,
    fun out => outcome.holds counted free, outcome.noCapacity_iff counted, outcome.malformedFormat_iff counted,
    outcome.closed_of_neg counted⟩
  rw [outcome.nonneg_iff counted]
  constructor
  · rintro ⟨out, ok, room⟩
    refine ⟨⟨out, ok⟩, ?_⟩
    rw [estimated out ok]
    omega
  · rintro ⟨⟨out, ok⟩, room⟩
    rw [estimated out ok] at room
    exact ⟨out, ok, by omega⟩

/-- A template of seven bytes in nine bytes of memory: one byte is left as it was. -/
theorem convertInto_frames_memory_of_zero_fill :
    estimate (some (terminated "%05d" ⟨#[0xff]⟩)) = 8 ∧
      ∃ after, convertInto (some (terminated "%05d" ⟨#[0xff]⟩)) (some ⟨Array.replicate 9 0x7f⟩) = (7, some after) ∧
        Holds "\x7bd:0>5\x7d" ⟨Array.replicate 9 0x7f⟩ after := by
  have ok : BraceTemplate.convert "%05d" = .ok "\x7bd:0>5\x7d" := by decide +kernel
  have short (out : String) (same : BraceTemplate.convert "%05d" = .ok out) : out.utf8ByteSize < 2 ^ 63 - 1 := by
    obtain rfl : "\x7bd:0>5\x7d" = out := Except.ok.inj (ok.symm.trans same)
    decide
  obtain ⟨estimated, -, result, after, written, -, success, holds, -⟩ :=
    convertInto_frames_memory "%05d" ⟨#[0xff]⟩ ⟨Array.replicate 9 0x7f⟩ (by decide) short
  have estimate : estimate (some (terminated "%05d" ⟨#[0xff]⟩)) = 8 := estimated _ ok
  have positive : 0 ≤ result := success.mpr ⟨⟨_, ok⟩, by rw [estimate]; decide⟩
  obtain ⟨count, text⟩ := holds _ ok positive
  obtain rfl : result = 7 := count.trans (by decide)
  exact ⟨estimate, after, written, text⟩

/-- A failure leaves an empty text if the argument is read as a text, and otherwise what the memory held. -/
theorem convertInto_empties_iff (argument : Option ByteArray) (memory : ByteArray) (whole : memory.size ≠ 0)
    (small : memory.size < 2 ^ 63) :
    ∃ result after, convertInto argument (some memory) = (result, some after) ∧
      (readText? argument = none → result = invalidArgument ∧ after = memory) ∧
      (result < 0 → (after[0]? = some 0 ↔ readText? argument ≠ none ∨ memory[0]? = some 0)) := by
  cases read : readText? argument with
  | none =>
    refine ⟨invalidArgument, memory, ?_, fun _ => ⟨rfl, rfl⟩, fun _ => by simp⟩
    unfold convertInto
    rw [read]
  | some source =>
    obtain ⟨result, after, written, outcome⟩ := exists_outcome read memory
    refine ⟨result, after, written, nofun, fun failed => iff_of_true ?_ (.inl nofun)⟩
    exact outcome.closed_of_neg (fun _ _ room => Nat.lt_trans room small) failed (Nat.pos_of_ne_zero whole)

/-- A text that is refused, in memory that held other bytes. -/
theorem convertInto_empties_iff_of_unknown_letter :
    convertInto (some ⟨#[0x25, 0x71, 0]⟩) (some ⟨#[0x7f, 0x7f]⟩) = (malformedFormat, some ⟨#[0, 0x7f]⟩) ∧
      ((⟨#[0, 0x7f]⟩ : ByteArray)[0]? = some 0 ↔
        readText? (some ⟨#[0x25, 0x71, 0]⟩) ≠ none ∨ (⟨#[0x7f, 0x7f]⟩ : ByteArray)[0]? = some 0) := by
  have computed : convertInto (some ⟨#[0x25, 0x71, 0]⟩) (some ⟨#[0x7f, 0x7f]⟩) =
      (malformedFormat, some ⟨#[0, 0x7f]⟩) := by decide +kernel
  obtain ⟨result, after, written, -, empties⟩ :=
    convertInto_empties_iff (some ⟨#[0x25, 0x71, 0]⟩) ⟨#[0x7f, 0x7f]⟩ (by decide) (by decide)
  rw [computed] at written
  obtain ⟨rfl, same⟩ := Prod.mk.inj written
  obtain rfl := Option.some.inj same
  exact ⟨computed, empties (by decide)⟩

/-- An absent argument, and one that is not UTF-8, fail and leave a byte that is not zero at the front. -/
theorem convertInto_keeps_unread_memory :
    convertInto none (some ⟨#[0x7f]⟩) = (invalidArgument, some ⟨#[0x7f]⟩) ∧
      convertInto (some ⟨#[0xff, 0]⟩) (some ⟨#[0x7f]⟩) = (invalidArgument, some ⟨#[0x7f]⟩) ∧
      invalidArgument < 0 ∧ (⟨#[0x7f]⟩ : ByteArray)[0]? ≠ some 0 := by
  refine ⟨rfl, ?_, by decide, by decide⟩
  have unread : readText? (some ⟨#[0xff, 0]⟩) = none := by decide +kernel
  unfold convertInto
  rw [unread]

end BraceTemplate.CInterface
