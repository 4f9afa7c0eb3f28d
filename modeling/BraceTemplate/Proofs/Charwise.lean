import BraceTemplate.Proofs.Threshold
import BraceTemplate.Sink.Charwise

/-! Character by character or piece by piece. A destination of single characters stops at the first that does not
fit, and storage of the same size stops there too, or one character earlier where an alignment of two does not fit as
a whole. -/
namespace BraceTemplate

/-- The longest beginning of `whole` that takes at most `capacity` bytes. -/
structure Text.LongestFitting (capacity : Nat) (whole held : List Char) : Prop where
  begins : held <+: whole
  fits : byteCount held ≤ capacity
  longest : ∀ other, other <+: whole → byteCount other ≤ capacity → other <+: held

namespace Text.LongestFitting

variable {capacity : Nat} {whole held other rest : List Char} {c : Char}

/-- What stands before the first character that does not fit. -/
theorem of_cut (split : whole = held ++ c :: rest) (fits : byteCount held ≤ capacity)
    (full : capacity < byteCount held + c.utf8Size) : LongestFitting capacity whole held where
  begins := ⟨c :: rest, split.symm⟩
  fits := fits
  longest other before small := by
    rcases List.prefix_or_prefix_of_prefix before ⟨c :: rest, split.symm⟩ with shorter | ⟨more, rfl⟩
    · exact shorter
    · obtain ⟨tail, whole_again⟩ := before
      rw [split, List.append_assoc] at whole_again
      have behind := List.append_cancel_left whole_again
      cases more with
      | nil => exact (List.append_nil held).symm ▸ List.prefix_rfl
      | cons d more =>
        obtain ⟨rfl, -⟩ := List.cons.inj behind
        rw [byteCount_append, byteCount] at small
        omega

theorem unique (h : LongestFitting capacity whole held) (h' : LongestFitting capacity whole other) : held = other :=
  (h'.longest held h.begins h.fits).eq_of_length_le (h.longest other h'.begins h'.fits).length_le

end Text.LongestFitting

namespace CharwiseSink

/-- Whatever the calls, single characters are what is written. -/
theorem writeAll_eq (chunks : List Chunk) :
    (Chunk.writeAll chunks : Write CharwiseSink Unit) = forM (Chunk.output chunks) append := by
  induction chunks with
  | nil => rfl
  | cons chunk chunks ih =>
    have once : (chunk.write : Write CharwiseSink Unit) = forM chunk.chars append := by
      cases chunk with
      | char c => simp [Chunk.write, Chunk.chars, Sink.writeChar]
      | text | decimal => rfl
    rw [Chunk.writeAll_cons, Chunk.output_cons, List.forM_append, ih, once]

section Attempt

/-! Calls on an empty destination, and an outcome behind them. -/
variable {capacity : Nat} {chunks : List Chunk}

theorem attempt_of_le (h : Text.byteCount (Chunk.output chunks) ≤ capacity) (outcome : Except FormatError Unit) :
    Write.attempt (do Chunk.writeAll chunks; Write.ofResult (Result.ofError outcome)) (ofCapacity capacity) =
      (Result.ofError outcome, ⟨capacity, String.ofList (Chunk.output chunks)⟩) := by
  have room : ("" : String).utf8ByteSize + Text.byteCount (Chunk.output chunks) ≤ capacity := by simpa using h
  rw [Write.attempt, writeAll_eq, ofCapacity, Write.bind_ok (forM_append_of_le room), String.empty_append]
  cases outcome <;> rfl

theorem attempt_of_lt (h : capacity < Text.byteCount (Chunk.output chunks)) (outcome : Except FormatError Unit) :
    ∃ required front,
      Write.attempt (do Chunk.writeAll chunks; Write.ofResult (Result.ofError outcome)) (ofCapacity capacity) =
        (.error (.format (.capacityExceeded capacity required)), ⟨capacity, String.ofList front⟩) ∧
      Text.LongestFitting capacity (Chunk.output chunks) front := by
  have exceeds : capacity < ("" : String).utf8ByteSize + Text.byteCount (Chunk.output chunks) := by simpa using h
  obtain ⟨front, c, back, split, fits, full, refused⟩ := forM_append_of_lt (Nat.zero_le _) exceeds
  rw [String.utf8ByteSize_empty, Nat.zero_add] at fits full refused
  refine ⟨Text.byteCount front + c.utf8Size, front, ?_, .of_cut split fits full⟩
  rw [Write.attempt, writeAll_eq, ofCapacity, Write.bind_error refused, String.empty_append]

end Attempt

end CharwiseSink

/-- An element of a list with a marked one is that one, or it stands in front of it or behind it. -/
private theorem cases_of_append_cons {α : Type} {front back before after : List α} {x marked : α}
    (h : front ++ x :: back = before ++ marked :: after) : x ∈ before ∨ (front = before ∧ x = marked) ∨ x ∈ after := by
  rcases List.append_eq_append_iff.mp h with ⟨more, rfl, rest⟩ | ⟨more, rfl, rest⟩
  · cases more with
    | nil => exact .inr (.inl ⟨(List.append_nil _).symm, (List.cons.inj rest).1⟩)
    | cons first more =>
      obtain ⟨rfl, -⟩ := List.cons.inj rest
      exact .inl (by simp)
  · cases more with
    | nil => exact .inr (.inl ⟨List.append_nil _, (List.cons.inj rest).1.symm⟩)
    | cons first more =>
      obtain ⟨-, rfl⟩ := List.cons.inj rest
      exact .inr (.inr (by simp))

/-- Storage takes the call one character at a time. -/
def Chunk.Single (chunk : Chunk) : Prop := ∀ piece ∈ chunk.pieces, ∃ c, piece.toList = [c]

namespace Chunk.Single

@[simp] theorem char (c : Char) : (Chunk.char c).Single := by
  intro piece member
  rw [List.mem_singleton.mp member]
  exact ⟨c, String.toList_singleton c⟩

@[simp] theorem decimal (n : UInt32) : (Chunk.decimal n).Single := by
  intro piece member
  obtain ⟨c, -, rfl⟩ := List.mem_map.mp member
  exact ⟨c, String.toList_singleton c⟩

@[simp] theorem tag (destination : Destination) : (text destination.tag).Single := by
  intro piece member
  rw [List.mem_singleton.mp member]
  cases destination <;> exact ⟨_, rfl⟩

@[simp] theorem left : (text Alignment.left.text).Single := by
  intro piece member
  rw [List.mem_singleton.mp member]
  exact ⟨'<', rfl⟩

end Chunk.Single

namespace Placeholder

/-- What is written of a placeholder in front of an alignment. -/
def opening (destination : Destination) : List Chunk := [.char '\x7b', .text destination.tag, .char ':']

/-- What is written of a placeholder behind an alignment. -/
def closing (width precision : Option UInt32) : List Chunk :=
  width.toList.map .decimal ++ precision.toList.flatMap (fun precision => [.char '.', .decimal precision])
    ++ [.char '\x7d']

private theorem single_opening (destination : Destination) : ∀ chunk ∈ opening destination, chunk.Single := by
  simp [opening]

private theorem single_closing (width precision : Option UInt32) : ∀ chunk ∈ closing width precision, chunk.Single := by
  cases width <;> cases precision <;> simp [closing]

private theorem chunks_cases (destination : Destination) (field : Field) :
    chunks destination field = [.char '\x7b', .text destination.tag, .char '\x7d'] ∨
      chunks destination field =
        opening destination ++ (field.flags.alignment?.toList.map fun alignment => .text alignment.text) ++
          closing field.width field.precision := by
  unfold chunks opening closing layoutChunks
  generalize field.flags.alignment? = alignment
  cases alignment <;> cases field.width <;> cases field.precision <;> simp

/-- Of the calls for a placeholder, only zeros in front are a piece of more than one character. -/
private theorem single_or_zeroFill (destination : Destination) (field : Field) :
    (∀ chunk ∈ chunks destination field, chunk.Single) ∨
      field.flags.alignment? = some .zeroFill ∧
        chunks destination field =
          opening destination ++ .text Alignment.zeroFill.text :: closing field.width field.precision := by
  have opened := single_opening destination
  have closed := single_closing field.width field.precision
  rcases chunks_cases destination field with bare | laid_out
  · left
    simp [bare]
  · rw [laid_out]
    cases field.flags.alignment? with
    | none =>
      left
      simpa [or_imp, forall_and] using ⟨opened, closed⟩
    | some alignment =>
      cases alignment with
      | zeroFill => exact .inr ⟨rfl, by simp⟩
      | left =>
        left
        simpa [or_imp, forall_and] using ⟨opened, closed⟩

end Placeholder

namespace Item

/-- What storage refuses behind the pieces in front: a single character, or the zeros in front that a clause asks
for. -/
def StopsAt (items : List Item) (front : List String) (piece : String) : Prop :=
  (∃ c, piece.toList = [c]) ∨
    ∃ before written after, items = before ++ clause written :: after ∧
      written.field.flags.alignment? = some .zeroFill ∧ piece = Alignment.zeroFill.text ∧
      front = (before.flatMap chunks ++ Placeholder.opening written.conversion.destination).flatMap Chunk.pieces

theorem StopsAt.cons {items : List Item} {front : List String} {piece : String} (h : StopsAt items front piece)
    (item : Item) : StopsAt (item :: items) (item.chunks.flatMap Chunk.pieces ++ front) piece := by
  rcases h with single | ⟨before, written, after, rfl, zeros, marked, rfl⟩
  · exact .inl single
  · refine .inr ⟨item :: before, written, after, rfl, zeros, marked, ?_⟩
    rw [List.flatMap_cons, List.append_assoc, ← List.flatMap_append]

/-- The piece is one of the first item. -/
private theorem stopsAt_of_first {item : Item} {front back : List String} {piece : String}
    (h : item.chunks.flatMap Chunk.pieces = front ++ piece :: back) (items : List Item) :
    StopsAt (item :: items) front piece := by
  have single {calls : List Chunk} (known : ∀ chunk ∈ calls, chunk.Single) (member : piece ∈ calls.flatMap Chunk.pieces) :
      ∃ c, piece.toList = [c] := by
    obtain ⟨chunk, called, part⟩ := List.mem_flatMap.mp member
    exact known chunk called piece part
  have member : piece ∈ item.chunks.flatMap Chunk.pieces := by
    rw [h]
    simp
  cases item with
  | literal c => exact .inl (Chunk.Single.char c piece (by simpa [chunks] using member))
  | percent => exact .inl (Chunk.Single.char '%' piece (by simpa [chunks] using member))
  | clause written =>
    rcases Placeholder.single_or_zeroFill written.conversion.destination written.field with known | ⟨zeros, calls⟩
    · exact .inl (single known member)
    · rw [chunks, calls, List.flatMap_append, List.flatMap_cons] at h
      rcases cases_of_append_cons h.symm with before | ⟨rfl, rfl⟩ | behind
      · exact .inl (single (Placeholder.single_opening _) before)
      · exact .inr ⟨[], written, items, rfl, zeros, rfl, rfl⟩
      · exact .inl (single (Placeholder.single_closing _ _) behind)

private theorem stopsAt {items : List Item} {front back : List String} {piece : String}
    (h : (items.flatMap chunks).flatMap Chunk.pieces = front ++ piece :: back) : StopsAt items front piece := by
  induction items generalizing front with
  | nil => simp at h
  | cons item items ih =>
    rw [List.flatMap_cons, List.flatMap_append] at h
    rcases List.append_eq_append_iff.mp h with ⟨more, rfl, rest⟩ | ⟨more, own, rest⟩
    · exact (ih rest).cons item
    · cases more with
      | nil =>
        have none_before : (items.flatMap chunks).flatMap Chunk.pieces = [] ++ piece :: back := rest.symm
        have later := (ih none_before).cons item
        rwa [own, List.append_nil, List.append_nil] at later
      | cons _ more =>
        obtain ⟨rfl, -⟩ := List.cons.inj rest
        exact stopsAt_of_first own items

end Item

/-- A result that the text decides and not the room for its template. -/
def Result.Conclusive (result : Result Unit) : Prop :=
  result = .ok () ∨ ∃ error : FormatError, error.isInputError ∧ result = .error (.format error)

private theorem Result.Conclusive.ne_capacityExceeded {result : Result Unit} (h : result.Conclusive)
    (limit required : Nat) :
    .error (.format (.capacityExceeded limit required)) ≠ result := by
  rintro rfl
  rcases h with ok | ⟨error, input, same⟩
  · cases ok
  · cases same
    cases input

/-- The template written so far ends in front of the alignment of a clause that asks for zeros in front. -/
def EndsBeforeZeros (source held : String) : Prop :=
  ∃ (before : List Char) (written : Clause) (after : List Char) (out : String),
    source.toList = before ++ written.text ++ after ∧ written.Legal ∧
    (FlagSet.ofList written.flags).alignment? = some .zeroFill ∧ convert (String.ofList before) = .ok out ∧
    held = out ++ "\x7b" ++ written.conversion.destination.tag ++ ":" ∧
    (held ++ Alignment.zeroFill.text).toList <+: (writtenText source).toList

/-- How a conversion character by character and one into storage compare that have the same capacity. -/
structure CharwiseSink.Agrees (source : String) (capacity : Nat) (charwise : Result Unit × CharwiseSink)
    (fixed : Result Unit × FixedBuffer) : Prop where
  same_result : ∀ result : Result Unit, result.Conclusive → (charwise.1 = result ↔ fixed.1 = result)
  same_text : Result.Conclusive charwise.1 → charwise.2.text = writtenText source ∧ fixed.2.text = writtenText source
  both_full : ¬ Result.Conclusive charwise.1 →
    (∃ required, charwise.1 = .error (.format (.capacityExceeded capacity required))) ∧
      ∃ required, fixed.1 = .error (.format (.capacityExceeded capacity required))
  longest : ¬ Result.Conclusive charwise.1 →
    Text.LongestFitting capacity (writtenText source).toList charwise.2.text.toList
  stopped : ¬ Result.Conclusive charwise.1 →
    fixed.2.text = charwise.2.text ∨
      (charwise.2.text = fixed.2.text ++ "0" ∧ EndsBeforeZeros source fixed.2.text)

variable {source : String} {items : List Item} {ending : Ending}

private theorem Reading.conclusive (h : Reading source.toList items ending) :
    Result.Conclusive (Result.ofError h.outcome) := by
  cases outcome : h.outcome with
  | ok _ => exact .inl rfl
  | error error => exact .inr ⟨error, h.isInputError outcome, rfl⟩

/-- Where storage stops in front of zeros, the text before the clause has been converted. -/
private theorem Reading.endsBeforeZeros {before after : List Item} {written : Clause}
    (h : Reading source.toList (before ++ .clause written :: after) ending)
    (zeros : written.field.flags.alignment? = some .zeroFill) {held : String}
    (front : held = String.join
      ((before.flatMap Item.chunks ++ Placeholder.opening written.conversion.destination).flatMap Chunk.pieces))
    (begins : (held ++ Alignment.zeroFill.text).toList <+: (BraceTemplate.writtenText source).toList) :
    EndsBeforeZeros source held := by
  have legal : ∀ item ∈ before, item.Legal := fun item member => h.items_legal item (by simp [member])
  have spell : Item.Spell before (String.ofList (before.flatMap Item.text)) := ⟨legal, String.toList_ofList⟩
  refine ⟨before.flatMap Item.text, written, after.flatMap Item.text ++ ending.text, _, ?_,
    h.items_legal (.clause written) (by simp), zeros, spell.convert, ?_, begins⟩
  · rw [h.spelled]
    simp [Item.text]
  · rw [front, Chunk.join_pieces, Chunk.output_append, Item.output_flatMap_chunks legal]
    apply String.toList_inj.mp
    simp [Placeholder.opening, Chunk.chars]

section Stopped

variable {capacity : Nat} {whole rest : List Char} {held piece : String}

/-- A single character that does not fit ends the longest beginning. -/
private theorem Text.longestFitting_of_single {c : Char} (split : whole = held.toList ++ piece.toList ++ rest)
    (single : piece.toList = [c]) (fits : held.utf8ByteSize ≤ capacity)
    (full : capacity < held.utf8ByteSize + piece.utf8ByteSize) : LongestFitting capacity whole held.toList := by
  rw [← byteCount_toList] at fits
  rw [← byteCount_toList, ← byteCount_toList, single, byteCount_singleton] at full
  have cut : whole = held.toList ++ c :: rest := by
    rw [split, single, List.append_assoc, List.singleton_append]
  exact .of_cut cut fits full

/-- Where both zeros in front do not fit, the first of them may. -/
private theorem Text.longestFitting_of_zeroFill (split : whole = held.toList ++ Alignment.zeroFill.text.toList ++ rest)
    (fits : held.utf8ByteSize ≤ capacity) (full : capacity < held.utf8ByteSize + Alignment.zeroFill.text.utf8ByteSize) :
    LongestFitting capacity whole held.toList ∨ LongestFitting capacity whole (held ++ "0").toList := by
  rcases Nat.lt_or_ge capacity (held.utf8ByteSize + 1) with none | first
  · left
    have at_zero : whole = held.toList ++ "0".toList ++ '>' :: rest := by
      rw [split]
      simp [Alignment.text]
    exact longestFitting_of_single at_zero rfl fits none
  · right
    have behind_zero : whole = (held ++ "0").toList ++ ">".toList ++ rest := by
      rw [split]
      simp [Alignment.text]
    have longer : (held ++ "0").utf8ByteSize = held.utf8ByteSize + 1 := String.utf8ByteSize_append
    refine longestFitting_of_single behind_zero rfl (longer ▸ first) ?_
    rw [longer]
    exact full

end Stopped

/-- Storage stops where single characters stop, or in front of zeros of which the first fits. -/
theorem Reading.stopped (h : Reading source.toList items ending) {capacity : Nat} {front back : List String}
    {piece : String} (split : (items.flatMap Item.chunks).flatMap Chunk.pieces = front ++ piece :: back)
    (fits : (String.join front).utf8ByteSize ≤ capacity)
    (full : capacity < (String.join front).utf8ByteSize + piece.utf8ByteSize) {longest : String}
    (single : Text.LongestFitting capacity (BraceTemplate.writtenText source).toList longest.toList) :
    String.join front = longest ∨
      (longest = String.join front ++ "0" ∧ EndsBeforeZeros source (String.join front)) := by
  have whole : (BraceTemplate.writtenText source).toList =
      (String.join front).toList ++ piece.toList ++ (String.join back).toList := by
    rw [h.writtenText, ← Item.output_flatMap_chunks h.items_legal, ← Chunk.join_pieces, split, String.join_append,
      String.join_cons, String.toList_append, String.toList_append, List.append_assoc]
  rcases Item.stopsAt split with ⟨c, one⟩ | ⟨before, written, after, rfl, zeros, rfl, opened⟩
  · left
    exact String.toList_inj.mp ((Text.longestFitting_of_single whole one fits full).unique single)
  · rcases Text.longestFitting_of_zeroFill whole fits full with none | first
    · exact .inl (String.toList_inj.mp (none.unique single))
    · refine .inr ⟨String.toList_inj.mp (single.unique first), h.endsBeforeZeros zeros (by rw [opened]) ?_⟩
      rw [whole, String.toList_append]
      exact List.prefix_append _ _

/-- With room for all of the template, the text decides how both conversions end. -/
private theorem Reading.agrees_of_le (h : Reading source.toList items ending) {storage : ByteArray}
    (room : BraceTemplate.writtenBytes source ≤ storage.size) :
    CharwiseSink.Agrees source storage.size
      ((BraceTemplate.transcode source).attempt (CharwiseSink.ofCapacity storage.size)) (convertInto source storage) := by
  have output := Item.output_flatMap_chunks h.items_legal
  obtain ⟨next, fixed, laid⟩ := h.convertInto_of_le room
  rw [h.writtenBytes, ← output] at room
  have charwise := CharwiseSink.attempt_of_le room h.outcome
  rw [← h.transcode] at charwise
  rw [charwise, fixed]
  have text : String.ofList (Chunk.output (items.flatMap Item.chunks)) = BraceTemplate.writtenText source := by
    rw [output, h.writtenText]
  exact {
    same_result := fun _ _ => Iff.rfl
    same_text := fun _ => ⟨text, by rw [laid.text_eq, h.writtenText]⟩
    both_full := fun undecided => absurd h.conclusive undecided
    longest := fun undecided => absurd h.conclusive undecided
    stopped := fun undecided => absurd h.conclusive undecided }

/-- Without room for all of the template, both conversions are refused for that. -/
private theorem Reading.agrees_of_lt (h : Reading source.toList items ending) {storage : ByteArray}
    (full : storage.size < BraceTemplate.writtenBytes source) :
    CharwiseSink.Agrees source storage.size
      ((BraceTemplate.transcode source).attempt (CharwiseSink.ofCapacity storage.size)) (convertInto source storage) := by
  have output := Item.output_flatMap_chunks h.items_legal
  have exceeds : (FixedBuffer.over storage).capacity <
      (FixedBuffer.over storage).size + BraceTemplate.writtenBytes source := by
    simpa [FixedBuffer.over, FixedBuffer.capacity] using full
  obtain ⟨front, piece, back, next, split, laid, small, fixed⟩ := h.attempt_of_lt exceeds
  rw [h.writtenBytes, ← output] at full
  obtain ⟨needed, written, charwise, longest⟩ := CharwiseSink.attempt_of_lt full h.outcome
  rw [← h.transcode] at charwise
  have capacity : next.capacity = storage.size := laid.capacity
  have inside : next.size ≤ next.capacity := next.size_le
  rw [capacity, laid.size_eq] at inside
  have longest_text : Text.LongestFitting storage.size (BraceTemplate.writtenText source).toList
      (String.ofList written).toList := by
    rw [h.writtenText, ← output, String.toList_ofList, String.toList_ofList]
    exact longest
  have stopped := h.stopped split inside (laid.size_eq ▸ small) longest_text
  rw [← laid.text_eq] at stopped
  have refused : ¬ Result.Conclusive (.error (.format (.capacityExceeded storage.size needed))) :=
    fun conclusive => conclusive.ne_capacityExceeded _ _ rfl
  rw [charwise, convertInto, fixed]
  exact {
    same_result := fun result conclusive =>
      iff_of_false (conclusive.ne_capacityExceeded _ _) (conclusive.ne_capacityExceeded _ _)
    same_text := fun conclusive => absurd conclusive refused
    both_full := fun _ => ⟨⟨_, rfl⟩, ⟨_, rfl⟩⟩
    longest := fun _ => longest_text
    stopped := fun _ => stopped }

/-- A conversion that makes its calls one character at a time ends as one into storage of the same size does, with the
same text, if it ends well or with a fault of the source. Otherwise both are refused for want of room, the one behind
the longest beginning of the template that there is room for, and the other there too or in front of the zero that is
the last character of it and the first of an alignment. -/
theorem charwise_agrees (source : String) (storage : ByteArray) :
    CharwiseSink.Agrees source storage.size
      ((transcode source).attempt (CharwiseSink.ofCapacity storage.size)) (convertInto source storage) := by
  obtain ⟨items, ending, reading⟩ := exists_reading source.toList
  rcases Nat.lt_or_ge storage.size (writtenBytes source) with full | room
  · exact reading.agrees_of_lt full
  · exact reading.agrees_of_le room

/-- In four bytes there is room for one character of the alignment. -/
example : ((transcode "%05d").attempt (CharwiseSink.ofCapacity 4)).2.text = "\x7bd:0" ∧
    (convertInto "%05d" (zeroBytes 4)).2.text = "\x7bd:" := by
  decide +kernel

end BraceTemplate
