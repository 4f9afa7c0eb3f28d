import BraceTemplate.Proofs.Decoding
import BraceTemplate.Proofs.Printing

/-! What a conversion keeps of a text: its literal text and what its placeholders say. Texts without an opening
brace have the same template exactly if the same is kept of them. -/
namespace BraceTemplate

/-- A piece of what is kept. -/
inductive Kept where
  | text (run : List Char)
  | block (block : Block)
  deriving DecidableEq, Repr

namespace Kept

/-- What the piece looks like in the template. -/
def chars : Kept → List Char
  | text run => run
  | block placeholder => placeholder.text

def isText : Kept → Bool
  | text _ => true
  | block _ => false

/-- A run of text in front of other pieces, put together with the text that they begin with. -/
def prepend (run : List Char) : List Kept → List Kept
  | .text next :: rest => .text (run ++ next) :: rest
  | pieces => .text run :: pieces

/-- The pieces with neighbouring runs of text put together. -/
def merge : List Kept → List Kept
  | [] => []
  | .text run :: rest => prepend run (merge rest)
  | .block placeholder :: rest => .block placeholder :: merge rest

/-- The pieces that can be told apart in a template: text that is not empty and opens no placeholder, and
placeholders with the tag of a destination. -/
def Valid : Kept → Prop
  | text run => run ≠ [] ∧ '\x7b' ∉ run
  | block placeholder => placeholder.Tagged

/-- Pieces of a template as it is read: no two runs of text are neighbours. -/
structure Normal (pieces : List Kept) : Prop where
  valid : ∀ piece ∈ pieces, piece.Valid
  apart : pieces.IsChain fun a b => ¬ (a.isText ∧ b.isText)

private theorem flatMap_chars_prepend (run : List Char) (pieces : List Kept) :
    (prepend run pieces).flatMap chars = run ++ pieces.flatMap chars := by
  unfold prepend
  split <;> simp [chars]

theorem flatMap_chars_merge (pieces : List Kept) : (merge pieces).flatMap chars = pieces.flatMap chars := by
  induction pieces with
  | nil => rfl
  | cons piece pieces ih =>
    cases piece with
    | text run => rw [merge, flatMap_chars_prepend, ih, List.flatMap_cons]; rfl
    | block placeholder => rw [merge, List.flatMap_cons, List.flatMap_cons, ih]

namespace Normal

variable {piece : Kept} {pieces : List Kept}

theorem nil : Normal [] := ⟨by simp, .nil⟩

theorem of_cons (h : Normal (piece :: pieces)) :
    piece.Valid ∧ (∀ next ∈ pieces.head?, ¬ (piece.isText ∧ next.isText)) ∧ Normal pieces := by
  obtain ⟨apart, rest⟩ := List.isChain_cons.mp h.apart
  exact ⟨h.valid piece (by simp), apart, fun other hm => h.valid other (by simp [hm]), rest⟩

theorem cons (h : Normal pieces) (valid : piece.Valid)
    (apart : ∀ next ∈ pieces.head?, ¬ (piece.isText ∧ next.isText)) : Normal (piece :: pieces) :=
  ⟨by simpa using ⟨valid, h.valid⟩, List.isChain_cons.mpr ⟨apart, h.apart⟩⟩

theorem prepend (h : Normal pieces) {run : List Char} (valid : (Kept.text run).Valid) :
    Normal (Kept.prepend run pieces) := by
  cases pieces with
  | nil => exact h.cons valid (by simp)
  | cons first rest =>
    cases first with
    | text next =>
      obtain ⟨⟨-, free⟩, apart, later⟩ := h.of_cons
      have longer : (Kept.text (run ++ next)).Valid := by
        refine ⟨List.append_ne_nil_of_left_ne_nil valid.1 next, ?_⟩
        simpa using ⟨valid.2, free⟩
      exact later.cons longer apart
    | block placeholder => exact h.cons valid (by simp [isText])

/-- What follows a run of text is a placeholder or nothing. -/
private theorem head_eq_brace {run : List Char} (h : Normal (.text run :: pieces)) {c : Char}
    (first : c ∈ (pieces.flatMap chars).head?) : c = '\x7b' := by
  obtain ⟨-, apart, -⟩ := h.of_cons
  cases pieces with
  | nil => cases first
  | cons next later =>
    cases next with
    | text other => exact absurd ⟨rfl, rfl⟩ (apart _ rfl)
    | block placeholder => exact (Option.some.inj first).symm

end Normal

private theorem normal_merge {pieces : List Kept} (h : ∀ piece ∈ pieces, piece.Valid) : Normal (merge pieces) := by
  induction pieces with
  | nil => exact .nil
  | cons piece pieces ih =>
    have rest := ih fun other hm => h other (by simp [hm])
    have first := h piece (by simp)
    cases piece with
    | text run => exact rest.prepend first
    | block placeholder => exact rest.cons first (by simp [isText])

private theorem Valid.chars_ne_nil {piece : Kept} (h : piece.Valid) : piece.chars ≠ [] := by
  cases piece with
  | text run => exact h.1
  | block placeholder => exact List.cons_ne_nil _ _

/-- A text that opens no placeholder does not begin as one. -/
private theorem text_append_ne_block {run : List Char} (h : (text run).Valid) (placeholder : Block)
    (r s : List Char) : run ++ r ≠ placeholder.text ++ s := by
  obtain ⟨hne, free⟩ := h
  cases run with
  | nil => exact absurd rfl hne
  | cons c run =>
    intro same
    obtain ⟨rfl, -⟩ := List.cons.inj same
    exact free (by simp)

/-- A template is read as pieces in one way only. -/
theorem flatMap_chars_inj {xs ys : List Kept} (hx : Normal xs) (hy : Normal ys)
    (h : xs.flatMap chars = ys.flatMap chars) : xs = ys := by
  induction xs generalizing ys with
  | nil =>
    cases ys with
    | nil => rfl
    | cons y ys => simp [hy.of_cons.1.chars_ne_nil] at h
  | cons x xs ih =>
    obtain ⟨validX, -, restX⟩ := hx.of_cons
    cases ys with
    | nil => simp [validX.chars_ne_nil] at h
    | cons y ys =>
      obtain ⟨validY, -, restY⟩ := hy.of_cons
      rw [List.flatMap_cons, List.flatMap_cons] at h
      cases x with
      | text run =>
        cases y with
        | text other =>
          obtain ⟨rfl, tail⟩ := Text.append_inj_of_notMem validX.2 validY.2 (fun _ => hx.head_eq_brace)
            (fun _ => hy.head_eq_brace) h
          rw [ih restX restY tail]
        | block placeholder => exact absurd h (text_append_ne_block validX placeholder _ _)
      | block placeholder =>
        cases y with
        | text other => exact absurd h.symm (text_append_ne_block validY placeholder _ _)
        | block other =>
          obtain ⟨rfl, tail⟩ := Block.append_inj validX validY h
          rw [ih restX restY tail]

end Kept

/-- What is kept of a segment. -/
def Segment.kept : Segment → Kept
  | literal text _ => .text text.toList
  | percent _ => .text ['%']
  | specifier found => .block (Placeholder.block found.conversion.destination found.field)

/-- What is kept of the segments of a text. -/
def Kept.ofSegments (segments : List Segment) : List Kept := merge (segments.map Segment.kept)

theorem Segment.template_eq (segment : Segment) : segment.template = String.ofList segment.kept.chars := by
  cases segment with
  | literal text span => exact String.ofList_toList.symm
  | percent span => rfl
  | specifier found => rw [template, Placeholder.text_eq, Placeholder.output_chunks]; rfl

private theorem Kept.flatMap_chars_ofSegments (segments : List Segment) :
    String.ofList ((ofSegments segments).flatMap chars) = String.join (segments.map Segment.template) := by
  apply String.toList_inj.mp
  rw [ofSegments, flatMap_chars_merge, String.toList_ofList, String.toList_join, List.flatMap_map, List.flatMap_map]
  simp only [Segment.template_eq, String.toList_ofList]

namespace Part

/-- Printed parts without an opening brace in their text are kept as valid pieces. -/
theorem Valid.kept {part : Part} (h : part.Valid) (free : '\x7b' ∉ part.text) (start : Nat) :
    (part.segment start).kept.Valid := by
  cases part with
  | literal run =>
    rw [segment, Segment.kept, String.toList_ofList]
    exact ⟨h.1, free⟩
  | percent => exact ⟨List.cons_ne_nil _ _, by decide⟩
  | directive printed => exact Placeholder.tagged_block _ _

private theorem mem_segments {parts : List Part} {start : Nat} {segment : Segment}
    (h : segment ∈ segments start parts) :
    ∃ part ∈ parts, ∃ offset, segment = part.segment offset := by
  induction parts generalizing start with
  | nil => cases h
  | cons part parts ih =>
    rcases List.mem_cons.mp h with rfl | later
    · exact ⟨part, List.mem_cons_self, start, rfl⟩
    · obtain ⟨other, member, offset, same⟩ := ih later
      exact ⟨other, List.mem_cons_of_mem part member, offset, same⟩

end Part

/-- What is kept of a text without an opening brace can be read off its template. -/
theorem Item.Spell.normal {items : List Item} {source : String} (h : Item.Spell items source)
    (free : '\x7b' ∉ source.toList) : Kept.Normal (Kept.ofSegments (Segment.ofItems 0 [] items)) := by
  obtain ⟨parts, printable, spelled, located⟩ := Item.exists_parts h.legal List.not_mem_nil
  rw [← show Part.segments 0 parts = Segment.ofItems 0 [] items from located 0]
  rw [List.nil_append, ← h.spelled] at spelled
  apply Kept.normal_merge
  intro piece member
  obtain ⟨segment, found, rfl⟩ := List.mem_map.mp member
  obtain ⟨part, printed, offset, rfl⟩ := Part.mem_segments found
  refine (printable.valid part printed).kept ?_ offset
  intro inside
  apply free
  rw [← spelled]
  exact List.mem_flatMap_of_mem printed inside

/-- The template shows what is kept and nothing else. -/
theorem Item.Spell.convert_eq_kept {items : List Item} {source : String} (h : Item.Spell items source) :
    BraceTemplate.convert source =
      .ok (String.ofList ((Kept.ofSegments (Segment.ofItems 0 [] items)).flatMap Kept.chars)) := by
  rw [h.convert, Kept.flatMap_chars_ofSegments, Segment.join_template_ofItems h.legal, List.nil_append]

/-- Two texts without an opening brace that are converted have the same template exactly if the same is kept of
their segments: the same literal text, and placeholders with the same tag, alignment, width and precision at the
same places. -/
theorem convert_eq_iff_kept_eq {a b out other : String} (ha : convert a = .ok out) (hb : convert b = .ok other)
    (freeA : '\x7b' ∉ a.toList) (freeB : '\x7b' ∉ b.toList) :
    ∃ segments others, scan a = .ok segments ∧ scan b = .ok others ∧
      (convert a = convert b ↔ Kept.ofSegments segments = Kept.ofSegments others) := by
  obtain ⟨items, endingA, readingA⟩ := exists_reading a.toList
  obtain ⟨more, endingB, readingB⟩ := exists_reading b.toList
  have spellA := readingA.spell_of_convert ha
  have spellB := readingB.spell_of_convert hb
  refine ⟨_, _, spellA.scan, spellB.scan, ?_⟩
  rw [spellA.convert_eq_kept, spellB.convert_eq_kept]
  constructor
  · intro same
    apply Kept.flatMap_chars_inj (spellA.normal freeA) (spellB.normal freeB)
    exact String.ofList_injective (Except.ok.inj same)
  · intro same
    rw [same]

/-- Escapes are text, flags and lengths without a spelling are dropped, and so are superfluous zeros. -/
theorem convert_eq_iff_kept_eq_of_synonyms :
    ∃ segments others, scan "%%\x7d%+-05.2lu" = .ok segments ∧ scan "%%\x7d%-5.002i" = .ok others ∧
      (convert "%%\x7d%+-05.2lu" = convert "%%\x7d%-5.002i" ↔ Kept.ofSegments segments = Kept.ofSegments others) := by
  have first : convert "%%\x7d%+-05.2lu" = .ok "%\x7d\x7bd:<5.2\x7d" := by decide +kernel
  have second : convert "%%\x7d%-5.002i" = .ok "%\x7d\x7bd:<5.2\x7d" := by decide +kernel
  exact convert_eq_iff_kept_eq first second (by decide) (by decide)

example : (scan "a%%b%-05d").map Kept.ofSegments =
    .ok [.text ['a', '%', 'b'], .block ⟨"d", some .left, some 5, none⟩] := by decide +kernel

end BraceTemplate
