import BraceTemplate.Proofs.Cover
import BraceTemplate.Proofs.Printing

/-! Segments as a tiling of their text. Each segment covers a piece of the text that looks as the segment says,
and the pieces follow each other from the first byte to the last. -/
namespace BraceTemplate

namespace Segment

/-- The bytes that the segment was read from. -/
def span : Segment → Span
  | literal _ span => span
  | percent span => span
  | specifier found => found.span

def isLiteral : Segment → Bool
  | literal .. => true
  | percent _ | specifier _ => false

/-- What the piece of text looks like that the segment was read from. -/
def Shows : Segment → List Char → Prop
  | literal text _, piece => text.toList = piece ∧ '%' ∉ piece
  | percent span, piece => span.size = 2 ∧ piece = ['%', '%']
  | specifier found, piece =>
    ∃ middle, piece = '%' :: middle ++ [found.conversion.char] ∧ '%' ∉ middle ++ [found.conversion.char]

end Segment

namespace Part

private theorem span_segment (part : Part) (start : Nat) :
    (part.segment start).span = ⟨start, start + Text.byteCount part.text⟩ := by
  cases part <;> rfl

private theorem isLiteral_segment (part : Part) (start : Nat) : (part.segment start).isLiteral = part.isLiteral := by
  cases part <;> rfl

theorem Valid.text_ne_nil {part : Part} (h : part.Valid) : part.text ≠ [] := by
  cases part with
  | literal run => exact h.1
  | percent | directive => exact List.cons_ne_nil _ _

theorem Valid.shows {part : Part} (h : part.Valid) (start : Nat) : (part.segment start).Shows part.text := by
  cases part with
  | literal run => exact ⟨String.toList_ofList, h.2⟩
  | percent => exact ⟨Nat.add_sub_cancel_left start 2, rfl⟩
  | directive printed =>
    obtain ⟨clause, legal, text, field, conversion⟩ := Directive.Valid.exists_clause h
    refine ⟨clause.stem.text.tail, ?_, ?_⟩
    · rw [Part.text, ← text, clause.text_eq_stem, clause.stem.text_eq_cons, conversion]
      rfl
    · intro member
      rcases List.mem_append.mp member with inside | last
      · exact legal.stem.reads.percent_notMem inside
      · exact printed.conversion.char_ne_percent (List.mem_singleton.mp last).symm

section Segments

variable {source : String} {before : List Char} {parts : List Part}

private theorem segments_cover (h : ∀ part ∈ parts, part.Valid) (split : source.toList = before ++ parts.flatMap text) :
    ∀ segment ∈ segments (Text.byteCount before) parts,
      ∃ piece, segment.span.Covers source piece ∧ segment.Shows piece := by
  induction parts generalizing before with
  | nil => exact fun _ member => absurd member List.not_mem_nil
  | cons part parts ih =>
    have valid := h part List.mem_cons_self
    rw [List.flatMap_cons, ← List.append_assoc] at split
    intro segment member
    rcases List.mem_cons.mp member with rfl | later
    · refine ⟨part.text, ?_, valid.shows _⟩
      rw [span_segment]
      exact Span.covers_of_split split valid.text_ne_nil
    · rw [← Text.byteCount_append] at later
      exact ih (fun other hm => h other (List.mem_cons_of_mem part hm)) split segment later

private theorem start_of_head (parts : List Part) (start : Nat) :
    ∀ first ∈ (segments start parts).head?, first.span.start = start := by
  cases parts with
  | nil => exact fun _ member => absurd member (Option.not_mem_none _)
  | cons part parts =>
    intro first head
    obtain rfl := Option.some.inj head
    rw [span_segment]

private theorem segments_contiguous (parts : List Part) (start : Nat) :
    (segments start parts).IsChain fun a b => a.span.stop = b.span.start := by
  induction parts generalizing start with
  | nil => exact .nil
  | cons part parts ih =>
    refine List.isChain_cons.mpr ⟨fun next head => ?_, ih _⟩
    rw [span_segment, start_of_head parts _ next head]

private theorem stop_of_getLast (parts : List Part) (start : Nat) :
    ∀ last ∈ (segments start parts).getLast?, last.span.stop = start + Text.byteCount (parts.flatMap text) := by
  induction parts generalizing start with
  | nil => exact fun _ member => absurd member (Option.not_mem_none _)
  | cons part parts ih =>
    intro last member
    rw [List.flatMap_cons, Text.byteCount_append, ← Nat.add_assoc]
    cases parts with
    | nil =>
      obtain rfl : part.segment start = last := Option.some.inj member
      rw [span_segment]
      rfl
    | cons next parts => exact ih _ last member

private theorem segments_apart (parts : List Part) (start : Nat)
    (h : parts.IsChain fun a b => ¬ (a.isLiteral ∧ b.isLiteral)) :
    (segments start parts).IsChain fun a b => ¬ (a.isLiteral ∧ b.isLiteral) := by
  induction parts generalizing start with
  | nil => exact .nil
  | cons part parts ih =>
    obtain ⟨apart, rest⟩ := List.isChain_cons.mp h
    refine List.isChain_cons.mpr ⟨fun next head => ?_, ih _ rest⟩
    cases parts with
    | nil => exact absurd head (Option.not_mem_none _)
    | cons other parts =>
      obtain rfl := Option.some.inj head
      rw [isLiteral_segment, isLiteral_segment]
      exact apart other rfl

end Segments

end Part

/-- The segments lie side by side from the first byte of the text to the last. Each one covers a piece of the text
that looks as it says, and a literal run is not cut into several. -/
structure Segment.Tile (segments : List Segment) (source : String) : Prop where
  covers : ∀ segment ∈ segments, ∃ piece, segment.span.Covers source piece ∧ segment.Shows piece
  contiguous : segments.IsChain fun a b => a.span.stop = b.span.start
  first_start : ∀ first ∈ segments.head?, first.span.start = 0
  last_stop : ∀ last ∈ segments.getLast?, last.span.stop = source.utf8ByteSize
  eq_nil_iff : segments = [] ↔ source = ""
  apart : segments.IsChain fun a b => ¬ (a.isLiteral ∧ b.isLiteral)

private theorem Printable.tile {parts : List Part} (h : Printable parts) {source : String}
    (spelled : parts.flatMap Part.text = source.toList) : Segment.Tile (Part.segments 0 parts) source where
  covers :=
    have split : source.toList = [] ++ parts.flatMap Part.text := spelled.symm
    Part.segments_cover h.valid split
  contiguous := Part.segments_contiguous parts 0
  first_start := Part.start_of_head parts 0
  last_stop := by
    intro last member
    rw [Part.stop_of_getLast parts 0 last member, Nat.zero_add, spelled, Text.byteCount_toList]
  eq_nil_iff := by
    cases parts with
    | nil => exact ⟨fun _ => String.toList_eq_nil_iff.mp spelled.symm, fun _ => rfl⟩
    | cons part parts =>
      refine ⟨fun empty => absurd empty (List.cons_ne_nil _ _), fun empty => ?_⟩
      rw [empty, String.toList_empty, List.flatMap_cons] at spelled
      exact absurd (List.append_eq_nil_iff.mp spelled).1 (h.valid part List.mem_cons_self).text_ne_nil
  apart := Part.segments_apart parts 0 h.apart

/-- The segments that a text is split into tile it. -/
theorem scan_tiles (source : String) (segments : List Segment) (h : scan source = .ok segments) :
    Segment.Tile segments source := by
  obtain ⟨items, spell, rfl⟩ := scan_eq_ok_iff.mp h
  obtain ⟨parts, printable, spelled, located⟩ := Item.exists_parts spell.legal List.not_mem_nil
  rw [← show Part.segments 0 parts = Segment.ofItems 0 [] items from located 0]
  exact printable.tile (spelled.trans spell.spelled.symm)

theorem scan_tiles_of_escape_then_directive :
    Segment.Tile [.literal "é" ⟨0, 2⟩, .percent ⟨2, 4⟩,
      .specifier ⟨⟨⟨true, false, false, false, false⟩, some 5, none, some .long⟩, .signedDecimal, ⟨4, 9⟩⟩,
      .literal "!" ⟨9, 10⟩] "é%%%-5ld!" :=
  scan_tiles _ _ (by decide)

end BraceTemplate
