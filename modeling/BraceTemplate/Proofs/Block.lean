import BraceTemplate.Proofs.Chunk

/-! Placeholders as they stand in a template: a tag and a layout between braces, which are the only braces. -/
namespace BraceTemplate

namespace Text

/-- A text is split before the first `stop`, also where it ends there instead. -/
theorem splitAt_of_notMem {stop : Char} {x r : List Char} (hx : stop ∉ x) (hr : ∀ c ∈ r.head?, c = stop) :
    (x ++ r).takeWhile (· ≠ stop) = x ∧ (x ++ r).dropWhile (· ≠ stop) = r := by
  have front : ∀ c ∈ x, (decide (c ≠ stop)) = true := by
    intro c member
    exact decide_eq_true (ne_of_mem_of_not_mem member hx)
  have stops : r.takeWhile (· ≠ stop) = [] ∧ r.dropWhile (· ≠ stop) = r := by
    cases r with
    | nil => exact ⟨rfl, rfl⟩
    | cons c r =>
      obtain rfl := hr c rfl
      exact ⟨List.takeWhile_cons_of_neg (by simp), List.dropWhile_cons_of_neg (by simp)⟩
  rw [List.takeWhile_append_of_pos front, List.dropWhile_append_of_pos front, stops.1, stops.2, List.append_nil]
  exact ⟨rfl, rfl⟩

/-- A text is split before the first `stop` in one way only. -/
theorem append_inj_of_notMem {stop : Char} {x y r s : List Char} (hx : stop ∉ x) (hy : stop ∉ y)
    (hr : ∀ c ∈ r.head?, c = stop) (hs : ∀ c ∈ s.head?, c = stop) (h : x ++ r = y ++ s) : x = y ∧ r = s := by
  obtain ⟨front, back⟩ := splitAt_of_notMem hx hr
  obtain ⟨other, behind⟩ := splitAt_of_notMem hy hs
  rw [h] at front back
  exact ⟨front.symm.trans other, back.symm.trans behind⟩

end Text

/-- What a placeholder says. -/
structure Block where
  tag : String
  alignment : Option Alignment
  width : Option UInt32
  precision : Option UInt32
  deriving DecidableEq, Repr

/-- The placeholder that a field becomes with the tag of `destination`. -/
def Placeholder.block (destination : Destination) (field : Field) : Block :=
  ⟨destination.tag, field.flags.alignment?, field.width, field.precision⟩

namespace Block

/-- The digits of a width, which may be absent. -/
def widthText (width : Option UInt32) : List Char := width.elim [] Decimal.digits32

/-- The dot and the digits of a precision, which may be absent. -/
def precisionText (precision : Option UInt32) : List Char :=
  precision.elim [] fun precision => '.' :: Decimal.digits32 precision

def alignmentText (alignment : Option Alignment) : List Char := alignment.elim [] (·.text.toList)

/-- What stands behind the colon. -/
def layout (block : Block) : List Char :=
  alignmentText block.alignment ++ widthText block.width ++ precisionText block.precision

/-- What stands between the braces. -/
def inside (block : Block) : List Char :=
  block.tag.toList ++ if block.layout = [] then [] else ':' :: block.layout

def text (block : Block) : List Char := '\x7b' :: block.inside ++ ['\x7d']

/-- The tag is that of a destination. -/
def Tagged (block : Block) : Prop := ∃ destination : Destination, destination.tag = block.tag

theorem widthText_subset (width : Option UInt32) : widthText width ⊆ "0123456789".toList := by
  cases width with
  | none => exact List.nil_subset _
  | some width =>
    rw [widthText, Option.elim_some, Decimal.digits32_eq_digits]
    exact Decimal.digits_subset _

private theorem precisionText_eq (precision : Option UInt32) :
    precisionText precision = if precision = none then [] else '.' :: widthText precision := by
  cases precision <;> rfl

theorem numbers_subset (width precision : Option UInt32) :
    widthText width ++ precisionText precision ⊆ ".0123456789".toList := by
  have digits (n : Option UInt32) : widthText n ⊆ ".0123456789".toList :=
    List.Subset.trans (widthText_subset n) (by decide)
  refine List.append_subset.mpr ⟨digits width, ?_⟩
  rw [precisionText_eq]
  split
  · exact List.nil_subset _
  · exact List.cons_subset.mpr ⟨by decide, digits precision⟩

private theorem layout_subset (block : Block) : block.layout ⊆ "<>.0123456789".toList := by
  have numbers : ".0123456789".toList ⊆ "<>.0123456789".toList := by decide
  rw [layout, List.append_assoc]
  refine List.append_subset.mpr ⟨?_, List.Subset.trans (numbers_subset _ _) numbers⟩
  rcases block.alignment with - | - | - <;> decide

/-- The characters between the braces. None of them is a brace. -/
def alphabet : List Char := "dxXoesc*:<>.0123456789".toList

theorem Tagged.exists_tag {block : Block} (h : block.Tagged) : ∃ c : Char, block.tag.toList = [c] := by
  obtain ⟨destination, tag⟩ := h
  rw [← tag]
  cases destination <;> exact ⟨_, rfl⟩

theorem Tagged.inside_subset {block : Block} (h : block.Tagged) : block.inside ⊆ alphabet := by
  obtain ⟨destination, tag⟩ := h
  refine List.append_subset.mpr ⟨?_, ?_⟩
  · rw [← tag]
    cases destination <;> decide
  · split
    · exact List.nil_subset _
    · have signs : "<>.0123456789".toList ⊆ alphabet := by decide
      exact List.cons_subset.mpr ⟨by decide, List.Subset.trans block.layout_subset signs⟩

private theorem Tagged.text_subset {block : Block} (h : block.Tagged) : block.text ⊆ '\x7b' :: '\x7d' :: alphabet := by
  have inside : block.inside ⊆ '\x7b' :: '\x7d' :: alphabet := fun _ member => by simp [h.inside_subset member]
  exact List.append_subset.mpr ⟨List.cons_subset.mpr ⟨by simp, inside⟩, by simp⟩

end Block

namespace Placeholder

theorem tagged_block (destination : Destination) (field : Field) : (block destination field).Tagged :=
  ⟨destination, rfl⟩

/-- The text of a placeholder is what is written for it. -/
theorem output_chunks (destination : Destination) (field : Field) :
    Chunk.output (chunks destination field) = (block destination field).text := by
  unfold chunks Block.text Block.inside Block.layout block Block.alignmentText Block.widthText Block.precisionText
  generalize field.flags.alignment? = alignment
  cases alignment with
  | none =>
    cases field.width <;> cases field.precision <;> simp [layoutChunks, Chunk.chars, Decimal.digits32_ne_nil]
  | some side =>
    have aligned : side.text.toList ≠ [] := by cases side <;> decide
    cases field.width <;> cases field.precision <;> simp [layoutChunks, Chunk.chars, aligned]

end Placeholder

/-- The placeholder of a clause takes nothing over from its spelling but digits. -/
theorem Clause.Legal.template_subset {clause : Clause} (h : clause.Legal) :
    clause.template ⊆ '\x7b' :: '\x7d' :: Block.alphabet := by
  rw [← h.output_chunks, Placeholder.output_chunks]
  exact (Placeholder.tagged_block _ _).text_subset

end BraceTemplate
