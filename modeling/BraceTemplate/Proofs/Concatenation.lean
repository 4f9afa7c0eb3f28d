import BraceTemplate.Proofs.Agreement

/-! Conversion of texts that are put together. Behind a text that is converted another text is read as if it
stood alone, but for the offsets: these are shifted by the bytes of the first text. -/
namespace BraceTemplate

def Span.shift (n : Nat) (span : Span) : Span := ⟨n + span.start, n + span.stop⟩

/-- The error with all of its offsets shifted. -/
def FormatError.shift (n : Nat) : FormatError → FormatError
  | invalidFlag flag offset => .invalidFlag flag (n + offset)
  | invalidCharacter found position offset => .invalidCharacter found position (n + offset)
  | missingPrecision offset => .missingPrecision (n + offset)
  | unterminated start stop => .unterminated (n + start) (n + stop)
  | unknownConversion found offset => .unknownConversion found (n + offset)
  | noEquivalent conversion offset => .noEquivalent conversion (n + offset)
  | capacityExceeded capacity required => .capacityExceeded capacity required
  | numericOverflow offset => .numericOverflow (n + offset)

def Specifier.shift (n : Nat) (specifier : Specifier) : Specifier :=
  { specifier with span := specifier.span.shift n }

def Diagnostic.shift (n : Nat) (diagnostic : Diagnostic) : Diagnostic :=
  { diagnostic with span := diagnostic.span.map (Span.shift n) }

namespace Segment

def shift (n : Nat) : Segment → Segment
  | literal text span => .literal text (span.shift n)
  | percent span => .percent (span.shift n)
  | specifier found => .specifier (found.shift n)

/-- The segments of a text after those of the text before it. A literal run in which the first text ends is
merged with one in which the second begins. -/
def join : List Segment → List Segment → List Segment
  | [], later => later
  | [literal front before], literal back after :: later =>
    .literal (front ++ back) ⟨before.start, after.stop⟩ :: later
  | segment :: rest, later => segment :: join rest later

private theorem join_cons_cons (first second : Segment) (rest later : List Segment) :
    join (first :: second :: rest) later = first :: join (second :: rest) later := by
  cases first <;> rfl

/-- Only literal runs are merged. -/
private theorem join_cons_of_ne {segment : Segment} (mark : ∀ text span, segment ≠ .literal text span)
    (rest later : List Segment) : join (segment :: rest) later = segment :: join rest later := by
  cases segment with
  | literal text span => exact absurd rfl (mark text span)
  | percent | specifier => cases rest <;> rfl

private theorem join_literal_of_ne (text : String) (span : Span) {later : List Segment}
    (mark : ∀ text span rest, later ≠ .literal text span :: rest) :
    join [literal text span] later = literal text span :: later := by
  cases later with
  | nil => rfl
  | cons segment rest =>
    cases segment with
    | literal other place => exact absurd rfl (mark other place rest)
    | percent | specifier => rfl

private theorem join_ofRun_append {segment : Segment} (mark : ∀ text span, segment ≠ .literal text span)
    (run : List Char) (stop : Nat) (rest later : List Segment) :
    join (ofRun run stop ++ segment :: rest) later = ofRun run stop ++ segment :: join rest later := by
  unfold ofRun
  split
  · exact join_cons_of_ne mark rest later
  · rw [List.singleton_append, join_cons_cons, join_cons_of_ne mark]
    rfl

private theorem flatMap_notes_join (segments later : List Segment) :
    (join segments later).flatMap notes = segments.flatMap notes ++ later.flatMap notes := by
  fun_induction join segments later with
  | case1 => rfl
  | case2 => rfl
  | case3 segment rest later _ ih => rw [List.flatMap_cons, ih, List.flatMap_cons, List.append_assoc]

end Segment

section Shift

variable {run : List Char} {stop offset : Nat}

private theorem Segment.ofRun_shift (n : Nat) (h : Text.byteCount run ≤ stop) :
    ofRun run (n + stop) = (ofRun run stop).map (shift n) := by
  unfold ofRun
  split
  · rfl
  · simp [shift, Span.shift, Nat.add_sub_assoc h]

/-- Items that stand further behind have their segments there. The run before them begins inside the text,
so that its start is shifted too. -/
private theorem Segment.ofItems_shift (n : Nat) (items : List Item) (h : Text.byteCount run ≤ offset) :
    ofItems (n + offset) run items = (ofItems offset run items).map (shift n) := by
  induction items generalizing run offset with
  | nil => exact ofRun_shift n h
  | cons item items ih =>
    have fresh (offset : Nat) : Text.byteCount [] ≤ offset := Nat.zero_le offset
    cases item with
    | literal c =>
      have longer : Text.byteCount (run ++ [c]) ≤ offset + c.utf8Size := by
        rw [Text.byteCount_append, Text.byteCount_singleton]
        omega
      rw [ofItems, ofItems, Nat.add_assoc, ih longer]
    | percent =>
      rw [ofItems, ofItems, List.map_append, List.map_cons, ofRun_shift n h, Nat.add_assoc, ih (fresh _)]
      rfl
    | clause clause =>
      rw [ofItems, ofItems, List.map_append, List.map_cons, ofRun_shift n h, Nat.add_assoc, ih (fresh _)]
      rfl

/-- A run in front of something else than a run is merged with the run before it. -/
private theorem Segment.ofRun_append_run {more : List Char} (hne : run ≠ []) (later : List Segment)
    (mark : ∀ text span rest, later ≠ .literal text span :: rest) :
    ofRun (run ++ more) stop ++ later =
      join (ofRun run (stop - Text.byteCount more)) (ofRun more stop ++ later) := by
  have whole : run ++ more ≠ [] := by simp [hne]
  have start : stop - Text.byteCount (run ++ more) = stop - Text.byteCount more - Text.byteCount run := by
    rw [Text.byteCount_append]
    omega
  rw [ofRun, if_neg whole, ofRun, if_neg hne, start]
  by_cases empty : more = []
  · subst empty
    rw [List.append_nil, ofRun, if_pos rfl, List.nil_append, List.singleton_append]
    exact (join_literal_of_ne _ _ mark).symm
  · rw [ofRun, if_neg empty, List.singleton_append, List.singleton_append, join, String.ofList_append]

/-- A run that goes on is the run before merged with what follows. -/
private theorem Segment.ofItems_append_run {more : List Char} (hne : run ≠ []) (items : List Item) :
    ofItems offset (run ++ more) items =
      join (ofRun run (offset - Text.byteCount more)) (ofItems offset more items) := by
  -- The later part of the run grows until a mark ends it, so the induction is over every such part.
  induction items generalizing offset more with
  | nil =>
    have merged : ofRun (run ++ more) offset ++ [] = join _ (ofRun more offset ++ []) :=
      ofRun_append_run hne [] (by simp)
    rwa [List.append_nil, List.append_nil] at merged
  | cons item items ih =>
    cases item with
    | literal c =>
      have start : offset + c.utf8Size - Text.byteCount (more ++ [c]) = offset - Text.byteCount more := by
        rw [Text.byteCount_append, Text.byteCount_singleton]
        omega
      rw [ofItems, ofItems, List.append_assoc, ih, start]
    | percent | clause _ => exact ofRun_append_run hne _ (by simp)

/-- Items behind other items have the segments that they have behind nothing, but for the run at the seam. -/
theorem Segment.ofItems_append (front back : List Item) :
    ofItems offset run (front ++ back) =
      join (ofItems offset run front) (ofItems (offset + Text.byteCount (front.flatMap Item.text)) [] back) := by
  induction front generalizing run offset with
  | nil =>
    by_cases empty : run = []
    · rw [empty]
      rfl
    · have behind : ofItems offset (run ++ []) back = join (ofRun run (offset - 0)) _ :=
        ofItems_append_run empty back
      rwa [List.append_nil] at behind
  | cons item front ih =>
    rw [List.cons_append, List.flatMap_cons, Text.byteCount_append, ← Nat.add_assoc]
    cases item with
    | literal c => exact ih
    | percent | clause _ =>
      rw [ofItems, ih, ofItems, join_ofRun_append (by simp)]
      rfl

private theorem Specifier.notes_shift (n : Nat) (specifier : Specifier) :
    (specifier.shift n).notes = specifier.notes.map (Diagnostic.shift n) := by
  simp [notes, conversionNotes, flagNotes, lengthNotes, List.map_filterMap, Function.comp_def]
  rfl

private theorem Segment.notes_shift (n : Nat) (segment : Segment) :
    (segment.shift n).notes = segment.notes.map (Diagnostic.shift n) := by
  cases segment with
  | literal | percent => rfl
  | specifier found => exact found.notes_shift n

private theorem Stem.refusal_shift (n : Nat) (stem : Stem) (c : Char) (offset : Nat) :
    stem.refusal c (n + offset) = (stem.refusal c offset).shift n := by
  unfold refusal
  split_ifs <;> rfl

/-- An ending that stands further behind has its fault there. -/
private theorem Ending.outcome_shift (n offset : Nat) (ending : Ending) :
    ending.outcome (n + offset) = (ending.outcome offset).mapError (FormatError.shift n) := by
  cases ending with
  | complete => rfl
  | unterminated stem => rw [outcome, outcome, Nat.add_assoc]; rfl
  | refused stem c rest => rw [outcome, outcome, Nat.add_assoc, stem.refusal_shift]; rfl

end Shift

section Append

variable {a b : String} {front back : List Item} {ending : Ending}

namespace Item.Spell

theorem utf8ByteSize (h : Item.Spell front a) : a.utf8ByteSize = Text.byteCount (front.flatMap Item.text) := by
  rw [← Text.byteCount_toList, h.spelled]

/-- Behind items, another text is read as it is read alone. -/
private theorem append_reading (ha : Item.Spell front a) (hb : Reading b.toList back ending) :
    Reading (a ++ b).toList (front ++ back) ending where
  items_legal item member := (List.mem_append.mp member).elim (ha.legal item) (hb.items_legal item)
  ending_legal := hb.ending_legal
  spelled := by rw [String.toList_append, ha.spelled, hb.spelled, List.flatMap_append, List.append_assoc]

theorem append (ha : Item.Spell front a) (hb : Item.Spell back b) : Item.Spell (front ++ back) (a ++ b) :=
  (ha.append_reading hb.reading).spell

private theorem outcome_append (ha : Item.Spell front a) (hb : Reading b.toList back ending) :
    (ha.append_reading hb).outcome = hb.outcome.mapError (FormatError.shift a.utf8ByteSize) := by
  rw [Reading.outcome, Reading.outcome, List.flatMap_append, Text.byteCount_append, ← ha.utf8ByteSize,
    Ending.outcome_shift]

private theorem segments_append (ha : Item.Spell front a) (back : List Item) :
    Segment.ofItems 0 [] (front ++ back) =
      Segment.join (Segment.ofItems 0 [] front)
        ((Segment.ofItems 0 [] back).map (Segment.shift a.utf8ByteSize)) := by
  have fresh : Text.byteCount [] ≤ 0 := Nat.le_refl 0
  rw [Segment.ofItems_append, Nat.zero_add, ← ha.utf8ByteSize, ← Segment.ofItems_shift _ _ fresh, Nat.add_zero]

private theorem notes_append (ha : Item.Spell front a) (back : List Item) :
    (Segment.ofItems 0 [] (front ++ back)).flatMap Segment.notes =
      (Segment.ofItems 0 [] front).flatMap Segment.notes
        ++ ((Segment.ofItems 0 [] back).flatMap Segment.notes).map (Diagnostic.shift a.utf8ByteSize) := by
  rw [ha.segments_append, Segment.flatMap_notes_join, List.flatMap_map, List.map_flatMap]
  exact congrArg (_ ++ List.flatMap · _) (funext (Segment.notes_shift _))

end Item.Spell

/-- A fault behind a text that is converted is reported at its shifted place, however the text is converted. -/
private theorem Item.Spell.errors_append (ha : Item.Spell front a) (hb : Reading b.toList back ending)
    {error : FormatError} (refused : hb.outcome = .error error) :
    BraceTemplate.convert (a ++ b) = .error (.format (error.shift a.utf8ByteSize)) ∧
      estimateCapacity (a ++ b) .exact = .error (.format (error.shift a.utf8ByteSize)) ∧
      BraceTemplate.scan (a ++ b) = .error (.format (error.shift a.utf8ByteSize)) ∧
      BraceTemplate.lint (a ++ b) = .error (.format (error.shift a.utf8ByteSize)) := by
  have whole := ha.append_reading hb
  have shifted : whole.outcome = .error (error.shift a.utf8ByteSize) := by
    rw [ha.outcome_append hb, refused]
    rfl
  rw [whole.convert, whole.estimate, whole.scan, whole.lint, shifted]
  exact ⟨rfl, rfl, rfl, rfl⟩

end Append

/-- Behind a text that is converted, another one is converted as it is alone: the templates are put together,
the bytes are added up, the notes follow each other and so do the segments, merged where a literal run goes on
from one text into the other. If the other text is refused, then every way to convert the whole refuses it
with the same error at the shifted place. -/
theorem convert_append (a b x : String) (h : convert a = .ok x) :
    (∀ y, convert b = .ok y →
      convert (a ++ b) = .ok (x ++ y) ∧
      ∃ m n segments later notes more,
        (estimateCapacity a .exact = .ok m ∧ estimateCapacity b .exact = .ok n ∧
          estimateCapacity (a ++ b) .exact = .ok (m + n)) ∧
        (scan a = .ok segments ∧ scan b = .ok later ∧
          scan (a ++ b) = .ok (Segment.join segments (later.map (Segment.shift a.utf8ByteSize)))) ∧
        lint a = .ok notes ∧ lint b = .ok more ∧
          lint (a ++ b) = .ok (notes ++ more.map (Diagnostic.shift a.utf8ByteSize))) ∧
    ∀ failure, convert b = .error failure →
      ∃ error, failure = .format error ∧
        convert (a ++ b) = .error (.format (error.shift a.utf8ByteSize)) ∧
        estimateCapacity (a ++ b) .exact = .error (.format (error.shift a.utf8ByteSize)) ∧
        scan (a ++ b) = .error (.format (error.shift a.utf8ByteSize)) ∧
        lint (a ++ b) = .error (.format (error.shift a.utf8ByteSize)) := by
  obtain ⟨front, _, first⟩ := exists_reading a.toList
  obtain ⟨back, ending, second⟩ := exists_reading b.toList
  have spell := first.spell_of_convert h
  constructor
  · intro y ok
    have other := second.spell_of_convert ok
    have whole := spell.append other
    have left : x = String.ofList (front.flatMap Item.template) := Except.ok.inj (h.symm.trans spell.convert)
    have right : y = String.ofList (back.flatMap Item.template) := Except.ok.inj (ok.symm.trans other.convert)
    refine ⟨?_, _, _, _, _, _, _, ⟨spell.estimate, other.estimate, ?_⟩, ⟨spell.scan, other.scan, ?_⟩,
      spell.lint, other.lint, ?_⟩
    · rw [whole.convert, List.flatMap_append, String.ofList_append, ← left, ← right]
    · rw [whole.estimate, List.flatMap_append, Text.byteCount_append]
    · rw [whole.scan, spell.segments_append]
    · rw [whole.lint, spell.notes_append]
  · intro failure refused
    obtain ⟨error, outcome, same⟩ := second.refused_iff.mp refused
    exact ⟨error, same, spell.errors_append second outcome⟩

/-- A text that ends in a literal run, followed by one that begins with a run, and by one that is refused. -/
theorem convert_append_of_run :
    convert "%%é" = .ok "%é" ∧
      convert ("%%é" ++ "x%+d") = .ok ("%é" ++ "x\x7bd\x7d") ∧
      convert ("%%é" ++ "x%.q") = .error (.format ((FormatError.missingPrecision 3).shift 4)) := by
  have ok : convert "%%é" = .ok "%é" := by decide
  refine ⟨ok, ((convert_append "%%é" "x%+d" "%é" ok).1 "x\x7bd\x7d" (by decide)).1, ?_⟩
  have alone : convert "x%.q" = .error (.format (.missingPrecision 3)) := by decide
  obtain ⟨error, same, refused, -⟩ := (convert_append "%%é" "x%.q" "%é" ok).2 _ alone
  cases same
  exact refused

example : scan ("%%é" ++ "x%+d") = .ok [.percent ⟨0, 2⟩, .literal "éx" ⟨2, 5⟩,
    .specifier ⟨⟨.ofList [.plus], none, none, none⟩, .signedDecimal, ⟨5, 8⟩⟩] := by decide

end BraceTemplate
