import BraceTemplate.Proofs.Chunk
import BraceTemplate.Proofs.Reading
import BraceTemplate.Proofs.Spelling
import BraceTemplate.Transcode

/-! What is written for a text that is read as items and an ending: the calls of the items in order,
and then the fault of the ending. -/
namespace BraceTemplate

namespace Ending

/-- How a text ends whose last item ends at byte `offset`. -/
def outcome (offset : Nat) : Ending → Except FormatError Unit
  | complete => .ok ()
  | unterminated stem => .error (.unterminated offset (offset + Text.byteCount stem.text))
  | refused stem c _ => .error (stem.refusal c (offset + Text.byteCount stem.text))

end Ending

theorem Result.map_eq_error_iff {α β : Type} {f : α → β} {result : Result α} {failure : Failure} :
    result.map f = .error failure ↔ result = .error failure := by
  cases result <;> simp [Except.map]

namespace Scanner

variable {σ : Type} [Sink σ] {scanner : Scanner}

theorem step_literal {c : Char} (h : scanner.position = .outside) (hc : c ≠ '%') (offset : Nat) :
    scanner.step offset c = .ok (.literal c, scanner) := by
  have described := Symbol.describes_ofChar c
  unfold step
  rw [h]
  cases symbol : Symbol.ofChar c with
  | percent =>
    rw [symbol] at described
    exact absurd described hc
  | _ => rfl

theorem step_open (h : scanner.position = .outside) (offset : Nat) :
    scanner.step offset '%' = .ok (.pending, Stem.opened.scanner offset) := by
  unfold step
  rw [h, Symbol.ofChar_percent]
  rfl

theorem transcode_cons {step : Step} {next : Scanner} {offset : Nat} {c : Char}
    (h : scanner.step offset c = .ok (step, next)) (rest : List Char) :
    (scanner.transcode offset (c :: rest) : Write σ Unit) =
      (do step.write; next.transcode (offset + c.utf8Size) rest) := by
  rw [transcode, h]
  rfl

theorem transcode_error {failure : Failure} {offset : Nat} {c : Char}
    (h : scanner.step offset c = .error failure) (rest : List Char) :
    (scanner.transcode offset (c :: rest) : Write σ Unit) = Write.ofResult (.error failure) := by
  rw [transcode, h]
  rfl

/-- Outside of clauses nothing of earlier ones is left. -/
private theorem transcode_outside (clauseStart offset : Nat) (text : List Char) :
    (transcode ⟨.outside, .empty, clauseStart⟩ offset text : Write σ Unit) = start.transcode offset text := by
  induction text generalizing offset with
  | nil => rfl
  | cons c rest ih =>
    by_cases percent : c = '%'
    · subst percent
      rw [transcode_cons (step_open rfl offset), transcode_cons (step_open rfl offset)]
    · rw [transcode_cons (step_literal rfl percent offset), transcode_cons (step_literal rfl percent offset), ih]

private theorem transcode_reads {stem last : Stem} {read : List Char} (h : Stem.Reads stem read last)
    (hs : stem.Legal) (clauseStart offset : Nat) (rest : List Char) :
    ((stem.scanner clauseStart).transcode offset (read ++ rest) : Write σ Unit) =
      (last.scanner clauseStart).transcode (offset + Text.byteCount read) rest := by
  induction h generalizing offset with
  | refl => rfl
  | cons grows _ ih =>
    rw [List.cons_append, transcode_cons (grows.step hs clauseStart offset), ih (grows.legal hs),
      Text.byteCount, Nat.add_assoc]
    rfl

private theorem transcode_stem {stem : Stem} (h : stem.Legal) (offset : Nat) (rest : List Char) :
    (start.transcode offset (stem.text ++ rest) : Write σ Unit) =
      (stem.scanner offset).transcode (offset + Text.byteCount stem.text) rest := by
  rw [stem.text_eq_cons, List.cons_append, transcode_cons (step_open rfl offset)]
  change ((Stem.opened.scanner offset).transcode _ _ : Write σ Unit) = _
  rw [transcode_reads h.reads Stem.legal_opened, Text.byteCount, Nat.add_assoc]

private theorem transcode_item {item : Item} (h : item.Legal) (offset : Nat) (rest : List Char) :
    (start.transcode offset (item.text ++ rest) : Write σ Unit) =
      (do Chunk.writeAll item.chunks; start.transcode (offset + Text.byteCount item.text) rest) := by
  cases item with
  | literal c =>
    rw [Item.text, List.singleton_append, transcode_cons (step_literal rfl h offset)]
    simp [Item.chunks, Chunk.writeAll, Chunk.write, Step.write, Text.byteCount]
  | percent =>
    rw [Item.text, List.cons_append, List.singleton_append, transcode_cons (step_open rfl offset),
      transcode_cons (Stem.step_percent offset _), transcode_outside]
    simp [Item.chunks, Chunk.writeAll, Chunk.write, Step.write, Text.byteCount, Nat.add_assoc]
  | clause clause =>
    have digit : clause.stem.precision ≠ some [] := h.precision_ne_nil
    have close := Stem.step_conversion digit clause.conversion
      (Nat.le_add_right offset (Text.byteCount clause.stem.text))
    have field : clause.stem.field = clause.field := (Stem.field_clause digit clause.conversion).symm
    rw [Item.text, clause.text_eq_stem, List.append_assoc, transcode_stem h.stem, List.singleton_append,
      transcode_cons close, transcode_outside, Text.byteCount_append, Text.byteCount_singleton, Nat.add_assoc]
    simp [Step.write, Specifier.write, Placeholder.write_eq, Item.chunks, field]

private theorem transcode_items {items : List Item} (h : ∀ item ∈ items, item.Legal) (offset : Nat)
    (rest : List Char) :
    (start.transcode offset (items.flatMap Item.text ++ rest) : Write σ Unit) =
      (do Chunk.writeAll (items.flatMap Item.chunks)
          start.transcode (offset + Text.byteCount (items.flatMap Item.text)) rest) := by
  induction items generalizing offset with
  | nil => simp [Chunk.writeAll_nil, Text.byteCount]
  | cons item items ih =>
    rw [List.flatMap_cons, List.flatMap_cons, List.append_assoc, transcode_item (h item (by simp)),
      ih (fun other hm => h other (by simp [hm])), Chunk.writeAll_append, Text.byteCount_append,
      bind_assoc, Nat.add_assoc]

private theorem transcode_ending {ending : Ending} (h : ending.Legal) (offset : Nat) :
    (start.transcode offset ending.text : Write σ Unit) =
      Write.ofResult (Result.ofError (ending.outcome offset)) := by
  cases ending with
  | complete => rfl
  | unterminated stem =>
    have inside : (stem.scanner offset).position ≠ .outside := stem.position_ne_outside
    rw [Ending.text, ← List.append_nil stem.text, transcode_stem h, transcode]
    unfold finish
    split
    · next outside => exact absurd outside inside
    · rfl
  | refused stem c rest =>
    rw [Ending.text, transcode_stem h.1, transcode_error (Stem.step_refusal h.1 h.2 offset _)]
    rfl

end Scanner

variable {source : String} {items : List Item} {ending : Ending}

/-- How the conversion of a text ends that is read as items and an ending. -/
def Reading.outcome (_ : Reading source.toList items ending) : Except FormatError Unit :=
  ending.outcome (Text.byteCount (items.flatMap Item.text))

/-- The calls of the items, then the fault of the ending. -/
theorem Reading.transcode (h : Reading source.toList items ending) {σ : Type} [Sink σ] :
    (BraceTemplate.transcode source : Write σ Unit) =
      (do Chunk.writeAll (items.flatMap Item.chunks); Write.ofResult (Result.ofError h.outcome)) := by
  rw [BraceTemplate.transcode, h.spelled, Scanner.transcode_items h.items_legal,
    Scanner.transcode_ending h.ending_legal, Nat.zero_add]
  rfl

/-- A destination that takes everything holds the templates of the items, whatever the ending. -/
theorem Reading.attempt (h : Reading source.toList items ending) {σ : Type} [Sink σ]
    {append : σ → List Char → σ} (hs : Sink.Unbounded append) (sink : σ) :
    (BraceTemplate.transcode source).attempt sink =
      (Result.ofError h.outcome, append sink (items.flatMap Item.template)) := by
  rw [h.transcode, hs.attempt, Item.output_flatMap_chunks h.items_legal]

theorem Reading.run (h : Reading source.toList items ending) {σ : Type} [Sink σ]
    {append : σ → List Char → σ} (hs : Sink.Unbounded append) (sink : σ) :
    (BraceTemplate.transcode source).run sink =
      (Result.ofError h.outcome).map fun _ => ((), append sink (items.flatMap Item.template)) := by
  rw [h.transcode, Write.run, Write.bind_ok (hs.writeAll _ _), Item.output_flatMap_chunks h.items_legal]
  cases h.outcome <;> rfl

theorem Reading.convert (h : Reading source.toList items ending) :
    convert source = (Result.ofError h.outcome).map fun _ => String.ofList (items.flatMap Item.template) := by
  rw [BraceTemplate.convert, h.run TextSink.unbounded]
  cases h.outcome with
  | error _ => rfl
  | ok _ => simp [Result.ofError, Except.map, bind, Except.bind, TextSink.empty]

/-- A text is refused for the fault of its ending only. -/
theorem Reading.refused_iff (h : Reading source.toList items ending) {failure : Failure} :
    BraceTemplate.convert source = .error failure ↔
      ∃ error, h.outcome = .error error ∧ failure = .format error := by
  rw [h.convert, Result.map_eq_error_iff]
  cases h.outcome <;> simp [Result.ofError, eq_comm]

end BraceTemplate
