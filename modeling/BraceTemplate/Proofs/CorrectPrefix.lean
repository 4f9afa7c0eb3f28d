import BraceTemplate.Proofs.Refusal
import BraceTemplate.Proofs.Segments

/-! When faults are found. A text is refused at the first character behind which no continuation could be
converted, so that every text whose characters are all accepted can be continued to one that is converted. -/
namespace BraceTemplate

namespace Scanner

/-- Feeds characters, the first at byte `offset`, up to the first that is refused. A refusal is reported with
the offset behind that character. -/
def feed (scanner : Scanner) (offset : Nat) : List Char → Except (Nat × Failure) Scanner
  | [] => .ok scanner
  | c :: rest =>
    match scanner.step offset c with
    | .ok (_, next) => next.feed (offset + c.utf8Size) rest
    | .error failure => .error (offset + c.utf8Size, failure)

end Scanner

/-- The calls that write what a step puts into the template. -/
def Step.chunks : Step → List Chunk
  | literal c => [.char c]
  | pending => []
  | percent => [.char '%']
  | specifier found => Placeholder.chunks found.conversion.destination found.field

theorem Step.write_eq {σ : Type} [Sink σ] (step : Step) :
    (step.write : Write σ Unit) = Chunk.writeAll step.chunks := by
  cases step with
  | literal c => exact (Chunk.writeAll_singleton (.char c)).symm
  | pending => rfl
  | percent => exact (Chunk.writeAll_singleton (.char '%')).symm
  | specifier found => exact Placeholder.write_eq _ _

namespace Scanner

variable {scanner next : Scanner} {offset : Nat}

/-- A character that is accepted leaves the rest of the text to the scanner behind it. -/
private theorem run_transcode_cons {step : Step} {c : Char} (h : scanner.step offset c = .ok (step, next))
    (sink : TextSink) : ∃ later : TextSink, ∀ rest,
      (scanner.transcode offset (c :: rest)).run sink =
        (next.transcode (offset + c.utf8Size) rest).run later := by
  refine ⟨⟨sink.text ++ String.ofList (Chunk.output step.chunks)⟩, fun rest => ?_⟩
  rw [transcode_cons h, step.write_eq, Write.run, Write.bind_ok (TextSink.unbounded.writeAll _ sink)]
  rfl

theorem run_transcode_of_feed_ok {text : List Char} (h : scanner.feed offset text = .ok next) (sink : TextSink) :
    ∃ later : TextSink, ∀ rest,
      (scanner.transcode offset (text ++ rest)).run sink =
        (next.transcode (offset + Text.byteCount text) rest).run later := by
  induction text generalizing scanner offset sink with
  | nil =>
    cases h
    exact ⟨sink, fun rest => rfl⟩
  | cons c text ih =>
    rw [feed] at h
    split at h
    · next step middle taken =>
      obtain ⟨between, first⟩ := run_transcode_cons taken sink
      obtain ⟨later, second⟩ := ih h between
      refine ⟨later, fun rest => ?_⟩
      rw [List.cons_append, first, second, Text.byteCount, Nat.add_assoc]
    · cases h

/-- What follows a character that is refused is never looked at. -/
theorem run_transcode_of_feed_error {text : List Char} {stop : Nat} {failure : Failure}
    (h : scanner.feed offset text = .error (stop, failure)) :
    ∃ front back, text = front ++ back ∧ stop = offset + Text.byteCount front ∧
      ∀ (sink : TextSink) rest, (scanner.transcode offset (front ++ rest)).run sink = .error failure := by
  induction text generalizing scanner offset with
  | nil => cases h
  | cons c text ih =>
    rw [feed] at h
    split at h
    · next step middle taken =>
      obtain ⟨front, back, rfl, rfl, refused⟩ := ih h
      refine ⟨c :: front, back, rfl, by rw [Text.byteCount, Nat.add_assoc], ?_⟩
      intro sink rest
      obtain ⟨between, first⟩ := run_transcode_cons taken sink
      rw [List.cons_append, first, refused]
    · next failure refused =>
      cases h
      refine ⟨[c], text, rfl, rfl, ?_⟩
      intro sink rest
      rw [List.singleton_append, transcode_error refused]
      rfl

end Scanner

theorem convert_eq_run (source : String) :
    convert source = ((transcode source).run TextSink.empty).map fun written => written.2.text := by
  rw [convert]
  cases (transcode source).run TextSink.empty <;> rfl

/-- A text of accepted characters fails at most because it ends inside a specifier. -/
private theorem convert_of_feed_ok {source : String} {scanner : Scanner}
    (h : Scanner.start.feed 0 source.toList = .ok scanner) {failure : Failure}
    (refused : convert source = .error failure) :
    ∃ start stop, failure = .format (.unterminated start stop) := by
  obtain ⟨later, rest⟩ := Scanner.run_transcode_of_feed_ok h TextSink.empty
  have ended := rest []
  rw [List.append_nil] at ended
  rw [convert_eq_run, transcode, ended, Scanner.transcode] at refused
  unfold Scanner.finish at refused
  split at refused
  · cases refused
  · cases refused
    exact ⟨_, _, rfl⟩

private theorem Stem.refusal_ne_unterminated (stem : Stem) (c : Char) (offset start stop : Nat) :
    stem.refusal c offset ≠ .unterminated start stop := by
  unfold refusal
  repeat' split
  all_goals nofun

private theorem IsClause.exists_item {text : List Char} (h : IsClause text) :
    ∃ item : Item, item.Legal ∧ item.text = text := by
  obtain rfl | ⟨clause, legal, rfl⟩ := h
  · exact ⟨.percent, trivial, rfl⟩
  · exact ⟨.clause clause, legal, rfl⟩

/-- A text that is unfinished at most can be continued to one that is converted. -/
private theorem Reading.exists_continuation {source : String} {items : List Item} {ending : Ending}
    (h : Reading source.toList items ending) (unrefused : ∀ stem c rest, ending ≠ .refused stem c rest) :
    ∃ more out, BraceTemplate.convert (source ++ more) = .ok out := by
  cases ending with
  | complete =>
    refine ⟨"", String.ofList (items.flatMap Item.template), ?_⟩
    rw [String.append_empty, h.convert]
    rfl
  | unterminated stem =>
    have legal : stem.Legal := h.ending_legal
    obtain ⟨more, finished⟩ := legal.viable
    obtain ⟨item, itemLegal, spelled⟩ := finished.exists_item
    have spell : Item.Spell (items ++ [item]) (source ++ String.ofList more) := by
      refine ⟨?_, ?_⟩
      · intro other member
        rcases List.mem_append.mp member with early | last
        · exact h.items_legal other early
        · rwa [List.mem_singleton.mp last]
      · rw [String.toList_append, String.toList_ofList, h.spelled, Ending.text, List.append_assoc, ← spelled]
        simp
    exact ⟨String.ofList more, _, spell.convert⟩
  | refused stem c rest => exact absurd rfl (unrefused stem c rest)

/-- Faults are reported as early as they can be found and no earlier. Whatever follows a character that is
refused, the conversion fails as it does there; and as long as every character is accepted, the text is the
beginning of one that is converted. -/
theorem convert_correct_prefix (source : String) :
    (∀ stop failure, Scanner.start.feed 0 source.toList = .error (stop, failure) →
      ∃ front, Text.slice? source.toList 0 stop = some front ∧
        ∀ more, convert (String.ofList front ++ more) = .error failure) ∧
    ∀ scanner, Scanner.start.feed 0 source.toList = .ok scanner →
      ∃ more out, convert (source ++ more) = .ok out := by
  constructor
  · intro stop failure fed
    obtain ⟨front, back, split, rfl, refused⟩ := Scanner.run_transcode_of_feed_error fed
    refine ⟨front, ?_, ?_⟩
    · have piece := Text.slice?_append [] front back
      rwa [List.nil_append, ← split] at piece
    · intro more
      rw [convert_eq_run, transcode, String.toList_append, String.toList_ofList, refused]
      rfl
  · intro scanner fed
    obtain ⟨items, ending, reading⟩ := exists_reading source.toList
    -- An ending that refuses a character gives another fault than the end of the text does.
    apply reading.exists_continuation
    rintro stem c rest rfl
    obtain ⟨start, stop, unfinished⟩ := convert_of_feed_ok fed reading.convert
    injection unfinished with same
    exact stem.refusal_ne_unterminated _ _ _ _ same

example : Scanner.start.feed 0 "é%5né".toList = .error (5, .format (.noEquivalent 'n' 4)) := by decide

end BraceTemplate
