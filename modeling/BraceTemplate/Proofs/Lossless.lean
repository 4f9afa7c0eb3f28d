import BraceTemplate.Proofs.Kept
import BraceTemplate.Proofs.Notes
import Mathlib.Data.List.Forall2

/-! Texts without notes. Nothing that such a text says is lost in its template but which of the synonyms `d`, `i`
and `f` it was said with, and whether zeros were asked for where the value is aligned to the left. -/
namespace BraceTemplate

namespace Kept

/-- The text before, between and behind the placeholders, where `run` stands in front. -/
def gaps (run : List Char) : List Kept → List (List Char)
  | [] => [run]
  | .text next :: rest => gaps (run ++ next) rest
  | .block _ :: rest => run :: gaps [] rest

def block? : Kept → Option Block
  | text _ => none
  | block placeholder => some placeholder

/-- The placeholders in order. -/
def blocks (pieces : List Kept) : List Block := pieces.filterMap block?

private theorem gaps_prepend (run next : List Char) (pieces : List Kept) :
    gaps run (prepend next pieces) = gaps (run ++ next) pieces := by
  unfold prepend
  split
  · rw [gaps, gaps, List.append_assoc]
  · rw [gaps]

private theorem blocks_prepend (next : List Char) (pieces : List Kept) :
    blocks (prepend next pieces) = blocks pieces := by
  unfold prepend
  split <;> rfl

/-- Putting runs of text together changes neither the text nor the placeholders. -/
private theorem gaps_merge (run : List Char) (pieces : List Kept) : gaps run (merge pieces) = gaps run pieces := by
  induction pieces generalizing run with
  | nil => rfl
  | cons piece pieces ih =>
    cases piece with
    | text next => rw [merge, gaps_prepend, ih, gaps]
    | block placeholder => rw [merge, gaps, gaps, ih]

private theorem blocks_merge (pieces : List Kept) : blocks (merge pieces) = blocks pieces := by
  induction pieces with
  | nil => rfl
  | cons piece pieces ih =>
    cases piece with
    | text next => rw [merge, blocks_prepend, ih]; rfl
    | block placeholder => exact congrArg (placeholder :: ·) ih

/-- Texts and placeholders put together in turn, as far as there are placeholders. -/
def weave : List (List Char) → List Block → List Char
  | run :: gaps, placeholder :: blocks => run ++ placeholder.text ++ weave gaps blocks
  | gaps, _ => gaps.flatten

/-- A template is what is between its placeholders, and these. -/
private theorem weave_gaps_blocks (run : List Char) (pieces : List Kept) :
    weave (gaps run pieces) (blocks pieces) = run ++ pieces.flatMap chars := by
  induction pieces generalizing run with
  | nil => simp [gaps, blocks, weave]
  | cons piece pieces ih =>
    cases piece with
    | text next => rw [gaps, show blocks (text next :: pieces) = blocks pieces from rfl, ih, List.flatMap_cons,
        ← List.append_assoc, chars]
    | block placeholder =>
      rw [gaps, show blocks (block placeholder :: pieces) = placeholder :: blocks pieces from rfl, weave, ih,
        List.flatMap_cons, List.nil_append, List.append_assoc, chars]

end Kept

namespace Specifier

/-- The placeholder that the specifier becomes. -/
def block (specifier : Specifier) : Block := Placeholder.block specifier.conversion.destination specifier.field

/-- Two specifiers that say the same in all that a template can say. -/
structure Synonym (a b : Specifier) : Prop where
  width : a.field.width = b.field.width
  precision : a.field.precision = b.field.precision
  length : a.field.length = none ∧ b.field.length = none
  plain : ∀ flag ∈ [Flag.plus, .space, .hash],
    a.field.flags.contains flag = false ∧ b.field.flags.contains flag = false
  minus : a.field.flags.contains .minus = b.field.flags.contains .minus
  zero : a.field.flags.contains .minus = false →
    a.field.flags.contains .zero = b.field.flags.contains .zero
  conversion : a.conversion = b.conversion ∨
    a.conversion ∈ [.signedDecimal, .integer, .float] ∧ b.conversion ∈ [.signedDecimal, .integer, .float]

end Specifier

/-- Exact renderings are told apart by their tags, but for the three conversions that have the same one. -/
theorem Conversion.tag_eq_iff {a b : Conversion} (ha : a.approximation? = none) (hb : b.approximation? = none) :
    a.destination.tag = b.destination.tag ↔
      a = b ∨ a ∈ [.signedDecimal, .integer, .float] ∧ b ∈ [.signedDecimal, .integer, .float] := by
  revert ha hb
  cases a <;> cases b <;> decide

private theorem FlagSet.alignment?_eq_iff {a b : FlagSet} :
    a.alignment? = b.alignment? ↔
      a.contains .minus = b.contains .minus ∧
        (a.contains .minus = false → a.contains .zero = b.contains .zero) := by
  unfold alignment?
  cases a.contains .minus <;> cases b.contains .minus <;> cases a.contains .zero <;> cases b.contains .zero <;> decide

namespace Specifier

variable {a b : Specifier}

/-- Without notes, specifiers with the same placeholder are synonyms. -/
theorem synonym_iff (ha : a.notes = []) (hb : b.notes = []) : a.Synonym b ↔ a.block = b.block := by
  obtain ⟨exactA, plainA, lengthA⟩ := notes_eq_nil_iff.mp ha
  obtain ⟨exactB, plainB, lengthB⟩ := notes_eq_nil_iff.mp hb
  have parts : a.block = b.block ↔ a.conversion.destination.tag = b.conversion.destination.tag ∧
      a.field.flags.alignment? = b.field.flags.alignment? ∧ a.field.width = b.field.width ∧
      a.field.precision = b.field.precision := by
    rw [block, block, Placeholder.block, Placeholder.block, Block.mk.injEq]
  rw [parts, Conversion.tag_eq_iff exactA exactB, FlagSet.alignment?_eq_iff]
  constructor
  · intro same
    exact ⟨same.conversion, ⟨same.minus, same.zero⟩, same.width, same.precision⟩
  · rintro ⟨conversion, ⟨minus, zero⟩, width, precision⟩
    exact ⟨width, precision, ⟨lengthA, lengthB⟩, fun flag dropped => ⟨plainA flag dropped, plainB flag dropped⟩,
      minus, zero, conversion⟩

end Specifier

private theorem Segment.blocks_map_kept (segments : List Segment) :
    Kept.blocks (segments.map kept) = (specifiers segments).map Specifier.block := by
  induction segments with
  | nil => rfl
  | cons segment segments ih =>
    cases segment with
    | literal | percent => exact ih
    | specifier found => exact congrArg (found.block :: ·) ih

/-- Without notes, specifiers are synonyms one by one exactly if their placeholders are the same. -/
theorem Segment.forall₂_synonym_iff {segments others : List Segment} (clean : segments.flatMap notes = [])
    (clean' : others.flatMap notes = []) :
    List.Forall₂ Specifier.Synonym (specifiers segments) (specifiers others) ↔
      Kept.blocks (segments.map kept) = Kept.blocks (others.map kept) := by
  rw [flatMap_notes, List.flatMap_eq_nil_iff] at clean clean'
  rw [blocks_map_kept, blocks_map_kept, ← List.forall₂_eq_eq_eq, List.forall₂_map_left_iff, List.forall₂_map_right_iff,
    List.forall₂_iff_zip, List.forall₂_iff_zip]
  refine and_congr_right fun _ => forall_congr' fun a => forall_congr' fun b => forall_congr' fun member => ?_
  exact Specifier.synonym_iff (clean a (List.of_mem_zip member).1) (clean' b (List.of_mem_zip member).2)

/-- Two texts without an opening brace and without notes have the same template exactly if the text between
their specifiers is the same, escapes being read, and the specifiers are synonyms one by one. -/
theorem convert_eq_iff_of_lint_eq_nil {a b : String} (freeA : '\x7b' ∉ a.toList) (freeB : '\x7b' ∉ b.toList)
    (cleanA : lint a = .ok []) (cleanB : lint b = .ok []) :
    ∃ segments others, scan a = .ok segments ∧ scan b = .ok others ∧
      (convert a = convert b ↔
        Kept.gaps [] (segments.map Segment.kept) = Kept.gaps [] (others.map Segment.kept) ∧
        List.Forall₂ Specifier.Synonym (Segment.specifiers segments) (Segment.specifiers others)) := by
  obtain ⟨segments, scannedA, notesA⟩ := lint_eq_ok_iff.mp cleanA
  obtain ⟨others, scannedB, notesB⟩ := lint_eq_ok_iff.mp cleanB
  obtain ⟨items, spellA, rfl⟩ := scan_eq_ok_iff.mp scannedA
  obtain ⟨more, spellB, rfl⟩ := scan_eq_ok_iff.mp scannedB
  refine ⟨_, _, scannedA, scannedB, ?_⟩
  rw [spellA.convert_eq_kept, spellB.convert_eq_kept, Segment.forall₂_synonym_iff notesA notesB]
  constructor
  · intro same
    have kept := Kept.flatMap_chars_inj (spellA.normal freeA) (spellB.normal freeB)
      (String.ofList_injective (Except.ok.inj same))
    have between := congrArg (Kept.gaps []) kept
    have blocks := congrArg Kept.blocks kept
    rw [Kept.ofSegments, Kept.ofSegments, Kept.gaps_merge, Kept.gaps_merge] at between
    rw [Kept.ofSegments, Kept.ofSegments, Kept.blocks_merge, Kept.blocks_merge] at blocks
    exact ⟨between, blocks⟩
  · rintro ⟨between, blocks⟩
    have woven (segments : List Segment) : (Kept.ofSegments segments).flatMap Kept.chars =
        Kept.weave (Kept.gaps [] (segments.map Segment.kept)) (Kept.blocks (segments.map Segment.kept)) := by
      rw [Kept.weave_gaps_blocks, Kept.ofSegments, Kept.flatMap_chars_merge, List.nil_append]
    rw [woven, woven, between, blocks]

/-- An escape is text, zeros are not asked for behind a minus sign, and `d` and `i` are the same. -/
theorem convert_eq_iff_of_lint_eq_nil_of_left_aligned :
    ∃ segments others, scan "%%\x7d%-05.2d" = .ok segments ∧ scan "%%\x7d%-5.002i" = .ok others ∧
      (convert "%%\x7d%-05.2d" = convert "%%\x7d%-5.002i" ↔
        Kept.gaps [] (segments.map Segment.kept) = Kept.gaps [] (others.map Segment.kept) ∧
        List.Forall₂ Specifier.Synonym (Segment.specifiers segments) (Segment.specifiers others)) := by
  have first : lint "%%\x7d%-05.2d" = .ok [] := by decide +kernel
  have second : lint "%%\x7d%-5.002i" = .ok [] := by decide +kernel
  exact convert_eq_iff_of_lint_eq_nil (by decide) (by decide) first second

end BraceTemplate
