import BraceTemplate.Proofs.Capacity
import BraceTemplate.Proofs.Segments

/-! The ways to convert a text agree. Whether it is written as a whole, counted, put into a buffer or
split into segments, it is accepted or refused alike, and the segments put together are the template. -/
namespace BraceTemplate

def Placeholder.text (destination : Destination) (field : Field) : String :=
  ((write destination field : Write TextSink Unit).attempt TextSink.empty).2.text

theorem Placeholder.text_eq (destination : Destination) (field : Field) :
    text destination field = String.ofList (Chunk.output (chunks destination field)) := by
  rw [text, write_eq, Write.attempt, TextSink.unbounded.writeAll]
  exact String.empty_append

namespace Segment

/-- What the segment contributes to the template. -/
def template : Segment → String
  | literal text _ => text
  | percent _ => "%"
  | specifier found => Placeholder.text found.conversion.destination found.field

private theorem join_template_ofRun (run : List Char) (stop : Nat) :
    String.join ((ofRun run stop).map template) = String.ofList run := by
  unfold ofRun
  split
  · next empty => rw [empty]; rfl
  · simp [template]

/-- A run and the segment behind it are put together in front of the rest. -/
private theorem join_template_mark {segment : Segment} {segments : List Segment} {written after : List Char}
    (h : segment.template = String.ofList written)
    (rest : String.join (segments.map template) = String.ofList after) (run : List Char) (stop : Nat) :
    String.join ((ofRun run stop ++ segment :: segments).map template) =
      String.ofList (run ++ (written ++ after)) := by
  rw [List.map_append, String.join_append, join_template_ofRun, List.map_cons, String.join_cons, h, rest,
    String.ofList_append, String.ofList_append]

private theorem template_specifier {clause : Clause} (h : clause.Legal) (span : Span) :
    (specifier ⟨clause.field, clause.conversion, span⟩).template = String.ofList clause.template := by
  rw [template, Placeholder.text_eq, h.output_chunks]

/-- Segments put together are the run before them and the templates of their items. -/
theorem join_template_ofItems {items : List Item} (h : ∀ item ∈ items, item.Legal) (offset : Nat)
    (run : List Char) :
    String.join ((ofItems offset run items).map template) =
      String.ofList (run ++ items.flatMap Item.template) := by
  induction items generalizing offset run with
  | nil =>
    rw [ofItems, join_template_ofRun]
    simp
  | cons item items ih =>
    have rest := ih fun other hm => h other (by simp [hm])
    cases item with
    | literal c =>
      rw [ofItems, rest, List.flatMap_cons, List.append_assoc]
      rfl
    | percent => exact join_template_mark rfl (rest _ []) run offset
    | clause clause =>
      have legal : clause.Legal := h (.clause clause) (by simp)
      exact join_template_mark (template_specifier legal _) (rest _ []) run offset

end Segment

/-- Every way to convert a text refuses it with the same error, or all succeed. Then the estimate is the
size of the template, the buffer is full and holds it, the segments make it up in order, and the notes
are those of the segments in order. -/
theorem conversions_agree (source : String) :
    (∃ error, convert source = .error (.format error) ∧
      estimateCapacity source .exact = .error (.format error) ∧
      convertFixed source none .standard = .error (.format error) ∧
      scan source = .error (.format error) ∧
      lint source = .error (.format error)) ∨
    ∃ out buffer segments notes, convert source = .ok out ∧
      estimateCapacity source .exact = .ok out.utf8ByteSize ∧
      convertFixed source none .standard = .ok buffer ∧
      scan source = .ok segments ∧
      lint source = .ok notes ∧
      buffer.text = out ∧ buffer.size = out.utf8ByteSize ∧ buffer.capacity = buffer.size ∧
      out = String.join (segments.map Segment.template) ∧
      notes = segments.flatMap Segment.notes := by
  obtain ⟨items, ending, reading⟩ := exists_reading source.toList
  have grown := reading.convert
  have estimate := reading.estimate
  have segments := reading.scan
  have notes := reading.lint
  cases outcome : reading.outcome with
  | error error =>
    rw [outcome] at grown estimate segments notes
    exact .inl ⟨error, grown, estimate, (convertFixed_of_estimate_error estimate).1, segments, notes⟩
  | ok _ =>
    rw [outcome] at grown estimate segments notes
    obtain ⟨same, sizes⟩ := convertSized_of_le (Nat.le_refl (writtenBytes source))
    rw [grown] at same
    cases fixed : convertSized source (writtenBytes source) with
    | error failure =>
      rw [fixed] at same
      cases same
    | ok buffer =>
      rw [fixed] at same
      obtain ⟨capacity, size, bytes⟩ := sizes buffer fixed
      have text : buffer.text = String.ofList (items.flatMap Item.template) := Except.ok.inj same
      rw [text] at bytes
      refine .inr ⟨_, buffer, _, _, grown, ?_, (convertFixed_policy estimate).trans fixed, segments, notes, text,
        bytes, capacity.trans size.symm, ?_, rfl⟩
      · rw [estimate, ← bytes, size]
        rfl
      · rw [Segment.join_template_ofItems reading.items_legal, List.nil_append]

end BraceTemplate
