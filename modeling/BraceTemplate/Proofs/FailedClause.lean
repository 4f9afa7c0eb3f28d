import BraceTemplate.Proofs.Capacity
import BraceTemplate.Proofs.CorrectPrefix

/-! What is written for a text that is refused. The clauses in front of the one that goes wrong are written
as if the text ended behind them, and nothing is written for that clause, however much of it had been read. -/
namespace BraceTemplate

namespace Scanner

/-- The scanner behind the last character that it takes, the first one at byte `offset`. The first refusal is
the end. -/
def reach (scanner : Scanner) (offset : Nat) : List Char → Scanner
  | [] => scanner
  | c :: rest =>
    match scanner.step offset c with
    | .ok (_, next) => next.reach (offset + c.utf8Size) rest
    | .error _ => scanner

variable {scanner next : Scanner} {offset : Nat}

private theorem feed_cons {step : Step} {c : Char} (h : scanner.step offset c = .ok (step, next)) (rest : List Char) :
    scanner.feed offset (c :: rest) = next.feed (offset + c.utf8Size) rest := by
  rw [feed, h]

private theorem reach_cons {step : Step} {c : Char} (h : scanner.step offset c = .ok (step, next)) (rest : List Char) :
    scanner.reach offset (c :: rest) = next.reach (offset + c.utf8Size) rest := by
  rw [reach, h]

private theorem reach_append {text : List Char} (h : scanner.feed offset text = .ok next) (rest : List Char) :
    scanner.reach offset (text ++ rest) = next.reach (offset + Text.byteCount text) rest := by
  induction text generalizing scanner offset with
  | nil =>
    cases h
    rfl
  | cons c text ih =>
    rw [feed] at h
    split at h
    · next step middle taken =>
      rw [List.cons_append, reach_cons taken, ih h, Text.byteCount, Nat.add_assoc]
    · cases h

private theorem feed_reads {stem last : Stem} {read : List Char} (h : Stem.Reads stem read last) (hs : stem.Legal)
    (clauseStart offset : Nat) : (stem.scanner clauseStart).feed offset read = .ok (last.scanner clauseStart) := by
  induction h generalizing offset with
  | refl => rfl
  | cons grows _ ih => rw [feed_cons (grows.step hs clauseStart offset), ih (grows.legal hs)]

private theorem feed_stem (h : scanner.position = .outside) {stem : Stem} (hs : stem.Legal) (offset : Nat) :
    scanner.feed offset stem.text = .ok (stem.scanner offset) := by
  rw [stem.text_eq_cons, feed_cons (step_open h offset), feed_reads hs.reads Stem.legal_opened]

/-- A clause is left where the first character stands that its stem does not accept. -/
private theorem reach_stuck {stem : Stem} (hs : stem.Legal) {tail : List Char}
    (stuck : ∀ c ∈ tail.head?, ¬ stem.Accepts c)
    (clauseStart offset : Nat) : (stem.scanner clauseStart).reach offset tail = stem.scanner clauseStart := by
  cases tail with
  | nil => rfl
  | cons c tail => rw [reach, Stem.step_refusal hs (stuck c rfl)]

end Scanner

variable {source : String}

/-- A text that is converted is taken as a whole, and the scanner is outside of clauses behind it. -/
private theorem feed_of_convert {out : String} (ok : convert source = .ok out) :
    ∃ next, Scanner.start.feed 0 source.toList = .ok next ∧ next.position = .outside := by
  cases fed : Scanner.start.feed 0 source.toList with
  | error refusal =>
    obtain ⟨front, back, split, -, refused⟩ := Scanner.run_transcode_of_feed_error fed
    have failed := refused TextSink.empty back
    rw [← split] at failed
    rw [convert_eq_run, transcode, failed] at ok
    cases ok
  | ok next =>
    refine ⟨next, rfl, ?_⟩
    obtain ⟨later, rest⟩ := Scanner.run_transcode_of_feed_ok fed TextSink.empty
    have ended := rest []
    rw [List.append_nil] at ended
    rw [convert_eq_run, transcode, ended, Scanner.transcode] at ok
    unfold Scanner.finish at ok
    split at ok
    · next outside => exact outside
    · cases ok

/-- The scanner gets as far as the clause that goes wrong, and then as far as its stem. -/
private theorem RefusedAt.reach {before tail : List Char} {stem : Stem} (h : RefusedAt source before stem tail) :
    Scanner.start.reach 0 source.toList = stem.scanner (Text.byteCount before) := by
  obtain ⟨out, converts⟩ := h.converts
  obtain ⟨next, fed, outside⟩ := feed_of_convert converts
  rw [String.toList_ofList] at fed
  rw [h.split, Scanner.reach_append fed, Scanner.reach_append (Scanner.feed_stem outside h.legal _), Nat.zero_add]
  exact Scanner.reach_stuck h.legal (h.legal.longest_iff.mp h.longest) _ _

private theorem exists_stuck_reading {failure : Failure} (refused : convert source = .error failure) :
    ∃ items stem tail, Reading source.toList items (Stem.ending stem tail) := by
  obtain ⟨items, ending, reading⟩ := exists_reading source.toList
  rcases ending.eq_complete_or with rfl | ⟨stem, tail, rfl⟩
  · rw [reading.convert] at refused
    cases refused
  · exact ⟨items, stem, tail, reading⟩

/-- A text that is refused is refused inside a clause. What stands in front of its percent sign is converted,
and a destination that has room for that much holds exactly that much more than before: none of the bytes,
however they are kept, are of the clause. -/
theorem failed_clause_writes_nothing (source : String) (failure : Failure) (refused : convert source = .error failure) :
    (Scanner.start.reach 0 source.toList).position ≠ .outside ∧
    ∃ before clause out,
      source.toList = before ++ '%' :: clause ∧
      Text.byteCount before = (Scanner.start.reach 0 source.toList).clauseStart ∧
      convert (String.ofList before) = .ok out ∧
      (∀ held, (transcode source).attempt (TextSink.mk held) = (.error failure, ⟨held ++ out⟩)) ∧
      (∀ count, (transcode source).attempt (ByteCount.mk count) = (.error failure, ⟨count + out.utf8ByteSize⟩)) ∧
      ∀ (held : String) (buffer : FixedBuffer), buffer.written = held.toByteArray →
        (held ++ out).utf8ByteSize ≤ buffer.capacity →
          ∃ next, (transcode source).attempt buffer = (.error failure, next) ∧
            next.text = held ++ out ∧ buffer.Extends out next := by
  obtain ⟨items, stem, tail, reading⟩ := exists_stuck_reading refused
  have place := reading.refusedAt
  have reached := place.reach
  have spell : Item.Spell items (String.ofList (items.flatMap Item.text)) :=
    ⟨reading.items_legal, String.toList_ofList⟩
  have outcome : Result.ofError reading.outcome = .error failure := by
    rw [reading.convert] at refused
    exact Result.map_eq_error_iff.mp refused
  refine ⟨by rw [reached]; exact stem.position_ne_outside, items.flatMap Item.text, stem.text.tail ++ tail,
    String.ofList (items.flatMap Item.template), ?_, by rw [reached]; rfl, spell.convert, ?_, ?_, ?_⟩
  · rw [place.split, ← List.cons_append, ← stem.text_eq_cons]
  · intro held
    rw [reading.attempt TextSink.unbounded, outcome]
  · intro count
    rw [reading.attempt ByteCount.unbounded, outcome, Text.utf8ByteSize_ofList]
  · intro held buffer before room
    have size : buffer.size = held.utf8ByteSize := by
      rw [← buffer.size_written, before, String.size_toByteArray]
    rw [String.utf8ByteSize_append, Text.utf8ByteSize_ofList, ← reading.writtenBytes, ← size] at room
    obtain ⟨next, attempt, laid⟩ := reading.attempt_of_le room
    exact ⟨next, outcome ▸ attempt, laid.text_append before, laid⟩

/-- Two flags have been read when the first is repeated, and the destination holds text already. -/
theorem failed_clause_writes_nothing_of_repeated_flag :
    (Scanner.start.reach 0 "at %5d: %-0-d".toList).clauseStart = 8 ∧
      ∃ before out, Text.byteCount before = 8 ∧ convert (String.ofList before) = .ok out ∧
        (transcode "at %5d: %-0-d").attempt (TextSink.mk "> ") =
          (.error (.format (.invalidFlag '-' 11)), ⟨"> " ++ out⟩) := by
  have place : (Scanner.start.reach 0 "at %5d: %-0-d".toList).clauseStart = 8 := by decide +kernel
  have refused : convert "at %5d: %-0-d" = .error (.format (.invalidFlag '-' 11)) := by decide +kernel
  obtain ⟨-, before, clause, out, -, offset, converts, text, -⟩ := failed_clause_writes_nothing _ _ refused
  exact ⟨place, before, out, offset.trans place, converts, text "> "⟩

end BraceTemplate
