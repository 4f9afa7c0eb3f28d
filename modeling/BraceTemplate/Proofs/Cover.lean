import BraceTemplate.Proofs.Segments

/-! Ranges that cover a piece of text. What a text shows at a range is decided by where its characters begin, and
a piece between others is covered by the range of its bytes. -/
namespace BraceTemplate

namespace Text

/-- The bytes in front of a character are a place of the text in the sense of the string library. -/
private theorem isValid_byteCount {source : String} {before after : List Char} (h : source.toList = before ++ after) :
    String.Pos.Raw.IsValid source ⟨byteCount before⟩ := by
  rw [String.Pos.Raw.isValid_iff_exists_append]
  refine ⟨String.ofList before, String.ofList after, ?_, ?_⟩
  · rw [← String.ofList_append, ← h, String.ofList_toList]
  · rw [String.rawEndPos, utf8ByteSize_ofList]

private theorem byteCount_of_slice? {text piece : List Char} {start stop : Nat}
    (h : slice? text start stop = some piece) :
    byteCount piece = stop - start := by
  unfold slice? at h
  split at h
  · cases h
  · obtain ⟨⟨_, rest⟩, -, h⟩ := Option.bind_eq_some_iff.mp h
    obtain ⟨⟨found, _⟩, taken, same⟩ := Option.bind_eq_some_iff.mp h
    obtain rfl : found = piece := Option.some.inj same
    exact (splitBytes?_eq_some taken).2

end Text

namespace Span

/-- The range is not empty and lies in the text between characters, and `piece` are the characters there. -/
structure Covers (span : Span) (source : String) (piece : List Char) : Prop where
  start_lt_stop : span.start < span.stop
  stop_le : span.stop ≤ source.utf8ByteSize
  start_isValid : String.Pos.Raw.IsValid source ⟨span.start⟩
  stop_isValid : String.Pos.Raw.IsValid source ⟨span.stop⟩
  slice : Text.slice? source.toList span.start span.stop = some piece

theorem Covers.ne_nil {span : Span} {source : String} {piece : List Char} (h : span.Covers source piece) :
    piece ≠ [] := by
  rintro rfl
  have empty := Text.byteCount_of_slice? h.slice
  have wide := h.start_lt_stop
  rw [Text.byteCount] at empty
  omega

/-- A piece of the text is covered by the range of its bytes. -/
theorem covers_of_split {source : String} {before piece after : List Char}
    (h : source.toList = before ++ piece ++ after) (hne : piece ≠ []) :
    Covers ⟨Text.byteCount before, Text.byteCount before + Text.byteCount piece⟩ source piece where
  start_lt_stop := Nat.lt_add_of_pos_right (Text.byteCount_pos hne)
  stop_le := by
    rw [← Text.byteCount_toList, h, Text.byteCount_append, Text.byteCount_append]
    exact Nat.le_add_right _ _
  start_isValid := Text.isValid_byteCount (h.trans (List.append_assoc before piece after))
  stop_isValid := by
    rw [← Text.byteCount_append]
    exact Text.isValid_byteCount h
  slice := by rw [h, Text.slice?_append]

end Span

end BraceTemplate
