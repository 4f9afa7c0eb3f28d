import BraceTemplate.Lint
import BraceTemplate.Proofs.Denotation

/-! Segments of a text that is read as items and an ending: literal items are gathered into runs, and
every other item is a segment of its own. -/
namespace BraceTemplate

namespace Text

theorem byteCount_pos {text : List Char} (hne : text ≠ []) : 0 < byteCount text := by
  cases text with
  | nil => exact absurd rfl hne
  | cons c rest =>
    rw [byteCount]
    exact Nat.add_pos_left c.utf8Size_pos _

private theorem splitBytes?_append (front back : List Char) :
    splitBytes? (byteCount front) (front ++ back) = some (front, back) := by
  induction front with
  | nil => simp [byteCount, splitBytes?]
  | cons c front ih =>
    have wide := c.utf8Size_pos
    obtain ⟨n, hn⟩ : ∃ n, byteCount (c :: front) = n + 1 :=
      ⟨byteCount (c :: front) - 1, by rw [byteCount]; omega⟩
    have rest : n + 1 - c.utf8Size = byteCount front := by rw [← hn, byteCount]; omega
    rw [hn, List.cons_append, splitBytes?, if_pos (by rw [← hn, byteCount]; omega), rest, ih]
    rfl

theorem slice?_append (before piece after : List Char) :
    slice? (before ++ piece ++ after) (byteCount before) (byteCount before + byteCount piece) =
      some piece := by
  have ordered : ¬ byteCount before + byteCount piece < byteCount before := by omega
  simp [slice?, ordered, splitBytes?_append]

end Text

namespace Segment

/-- The literal run that ends at byte `stop`, unless it is empty. -/
def ofRun (run : List Char) (stop : Nat) : List Segment :=
  if run = [] then [] else [.literal (String.ofList run) ⟨stop - Text.byteCount run, stop⟩]

/-- The segments of items from byte `offset` on, where the text before ends in the literal run `run`. -/
def ofItems (offset : Nat) (run : List Char) : List Item → List Segment
  | [] => ofRun run offset
  | .literal c :: rest => ofItems (offset + c.utf8Size) (run ++ [c]) rest
  | .percent :: rest =>
    ofRun run offset ++ .percent ⟨offset, offset + 2⟩ :: ofItems (offset + 2) [] rest
  | .clause written :: rest =>
    ofRun run offset
      ++ .specifier ⟨written.field, written.conversion, ⟨offset, offset + Text.byteCount written.text⟩⟩
        :: ofItems (offset + Text.byteCount written.text) [] rest

private theorem completed_percent (source : List Char) (offset : Nat) :
    completed source none (offset + 1) .percent = .ok ([.percent ⟨offset, offset + 2⟩], none) := by
  rw [completed, Segment.run, escape, Span.between_of_le (Nat.le_add_right offset 2)]
  rfl

/-- Where the literal run `run` begins that follows the text `before`. -/
def runStart (before run : List Char) : Option Nat :=
  if run = [] then none else some (Text.byteCount before)

private theorem run_eq {source before run after : List Char} (h : source = before ++ run ++ after) :
    Segment.run source (runStart before run) (Text.byteCount (before ++ run)) =
      .ok (ofRun run (Text.byteCount (before ++ run))) := by
  by_cases empty : run = []
  · simp [runStart, ofRun, empty, Segment.run]
  · have wide : 0 < Text.byteCount run := Text.byteCount_pos empty
    rw [runStart, ofRun, if_neg empty, if_neg empty, Segment.run, Text.byteCount_append,
      if_pos (Nat.lt_add_of_pos_right wide), h, Text.slice?_append]
    simp only [Span.between_of_le (Nat.le_add_right (Text.byteCount before) (Text.byteCount run)), Nat.add_sub_cancel]
    rfl

end Segment

namespace Scanner

variable {scanner next : Scanner} {source : List Char} {offset : Nat} {runStart : Option Nat} {c : Char}

private theorem segments_error {failure : Failure} (h : scanner.step offset c = .error failure)
    (rest : List Char) : scanner.segments source offset runStart (c :: rest) = .error failure := by
  rw [segments, h]
  rfl

private theorem segments_cons {step : Step} {done : List Segment} {after : Option Nat}
    (h : scanner.step offset c = .ok (step, next))
    (hd : Segment.completed source runStart offset step = .ok (done, after)) (rest : List Char) :
    scanner.segments source offset runStart (c :: rest) =
      (next.segments source (offset + c.utf8Size) after rest).map (done ++ ·) := by
  rw [segments, h]
  simp only [bind, Except.bind, hd]
  cases next.segments source (offset + c.utf8Size) after rest <;> rfl

private theorem segments_skip {step : Step} {after : Option Nat} (h : scanner.step offset c = .ok (step, next))
    (hd : Segment.completed source runStart offset step = .ok ([], after)) (rest : List Char) :
    scanner.segments source offset runStart (c :: rest) =
      next.segments source (offset + c.utf8Size) after rest := by
  rw [segments_cons h hd]
  cases next.segments source (offset + c.utf8Size) after rest <;> rfl

/-- Outside of clauses nothing of earlier ones is left. -/
private theorem segments_outside (clauseStart offset : Nat) (runStart : Option Nat) (text : List Char) :
    segments source ⟨.outside, .empty, clauseStart⟩ offset runStart text =
      start.segments source offset runStart text := by
  induction text generalizing offset runStart with
  | nil => rfl
  | cons c rest ih =>
    by_cases percent : c = '%'
    · subst percent
      rw [segments, segments, step_open rfl, step_open rfl]
    · rw [segments, segments, step_literal rfl percent, step_literal rfl percent]
      simp only [bind, Except.bind, Segment.completed, ih]

private theorem segments_reads {stem last : Stem} {read : List Char} (h : Stem.Reads stem read last)
    (hs : stem.Legal) (clauseStart offset : Nat) (rest : List Char) :
    (stem.scanner clauseStart).segments source offset none (read ++ rest) =
      (last.scanner clauseStart).segments source (offset + Text.byteCount read) none rest := by
  induction h generalizing offset with
  | refl => rfl
  | cons grows _ ih =>
    rw [List.cons_append, segments_skip (grows.step hs clauseStart offset) rfl, ih (grows.legal hs),
      Text.byteCount, Nat.add_assoc]

section Items

variable {before run after : List Char}

/-- The percent sign of a clause ends the literal run before it. -/
private theorem segments_open (h : source = before ++ run ++ after) (rest : List Char) :
    start.segments source (Text.byteCount (before ++ run)) (Segment.runStart before run) ('%' :: rest) =
      ((Stem.opened.scanner (Text.byteCount (before ++ run))).segments source
        (Text.byteCount (before ++ run) + 1) none rest).map
          (Segment.ofRun run (Text.byteCount (before ++ run)) ++ ·) := by
  have done : Segment.completed source (Segment.runStart before run) (Text.byteCount (before ++ run)) .pending =
      .ok (Segment.ofRun run (Text.byteCount (before ++ run)), none) := by
    rw [Segment.completed, Segment.run_eq h]
    rfl
  exact segments_cons (step_open rfl _) done rest

private theorem segments_stem {stem : Stem} (hs : stem.Legal) (h : source = before ++ run ++ after)
    (rest : List Char) :
    start.segments source (Text.byteCount (before ++ run)) (Segment.runStart before run) (stem.text ++ rest) =
      ((stem.scanner (Text.byteCount (before ++ run))).segments source
        (Text.byteCount (before ++ run) + Text.byteCount stem.text) none rest).map
          (Segment.ofRun run (Text.byteCount (before ++ run)) ++ ·) := by
  rw [stem.text_eq_cons, List.cons_append, segments_open h, segments_reads hs.reads Stem.legal_opened,
    Text.byteCount, Nat.add_assoc]
  rfl

private theorem segments_ending {ending : Ending} (he : ending.Legal)
    (h : source = before ++ run ++ ending.text) :
    start.segments source (Text.byteCount (before ++ run)) (Segment.runStart before run) ending.text =
      (Result.ofError (ending.outcome (Text.byteCount (before ++ run)))).map
        fun _ => Segment.ofRun run (Text.byteCount (before ++ run)) := by
  cases ending with
  | complete =>
    rw [Ending.text, segments, Segment.run_eq h]
    rfl
  | unterminated stem =>
    have inside : (stem.scanner (Text.byteCount (before ++ run))).position ≠ .outside :=
      stem.position_ne_outside
    have spelled : (Ending.unterminated stem).text = stem.text ++ [] := (List.append_nil _).symm
    rw [spelled, segments_stem he h, segments]
    unfold finish
    split
    · next outside => exact absurd outside inside
    · rfl
  | refused stem c rest =>
    rw [Ending.text, segments_stem he.1 h, segments_error (Stem.step_refusal he.1 he.2 _ _)]
    rfl

private theorem segments_escape (h : source = before ++ run ++ after) (rest : List Char) :
    start.segments source (Text.byteCount (before ++ run)) (Segment.runStart before run) ('%' :: '%' :: rest) =
      (start.segments source (Text.byteCount (before ++ run) + 2) none rest).map fun later =>
        Segment.ofRun run (Text.byteCount (before ++ run))
          ++ .percent ⟨Text.byteCount (before ++ run), Text.byteCount (before ++ run) + 2⟩ :: later := by
  have wide : '%'.utf8Size = 1 := rfl
  rw [segments_open h, segments_cons (Stem.step_percent _ _) (Segment.completed_percent _ _),
    segments_outside, wide, Nat.add_assoc]
  generalize start.segments source _ none rest = later
  cases later <;> rfl

private theorem segments_clause {clause : Clause} (hc : clause.Legal) (h : source = before ++ run ++ after)
    (rest : List Char) :
    start.segments source (Text.byteCount (before ++ run)) (Segment.runStart before run) (clause.text ++ rest) =
      (start.segments source (Text.byteCount (before ++ run) + Text.byteCount clause.text) none rest).map
        fun later => Segment.ofRun run (Text.byteCount (before ++ run))
          ++ .specifier ⟨clause.field, clause.conversion, ⟨Text.byteCount (before ++ run),
            Text.byteCount (before ++ run) + Text.byteCount clause.text⟩⟩ :: later := by
  have digit : clause.stem.precision ≠ some [] := hc.precision_ne_nil
  have field : clause.stem.field = clause.field := (Stem.field_clause digit clause.conversion).symm
  have close := Stem.step_conversion digit clause.conversion
    (Nat.le_add_right (Text.byteCount (before ++ run)) (Text.byteCount clause.stem.text))
  rw [field] at close
  rw [clause.text_eq_stem, List.append_assoc, List.singleton_append, segments_stem hc.stem h,
    segments_cons close rfl, segments_outside, Text.byteCount_append clause.stem.text,
    Text.byteCount_singleton, ← Nat.add_assoc]
  generalize start.segments source _ none rest = later
  cases later <;> rfl

/-- Items are read as segments, and the fault of the ending is reported. -/
theorem segments_reading {items : List Item} {ending : Ending} (hi : ∀ item ∈ items, item.Legal)
    (he : ending.Legal) (h : source = before ++ run ++ (items.flatMap Item.text ++ ending.text)) :
    start.segments source (Text.byteCount (before ++ run)) (Segment.runStart before run)
        (items.flatMap Item.text ++ ending.text) =
      (Result.ofError (ending.outcome
        (Text.byteCount (before ++ run) + Text.byteCount (items.flatMap Item.text)))).map
          fun _ => Segment.ofItems (Text.byteCount (before ++ run)) run items := by
  induction items generalizing before run with
  | nil => exact segments_ending he h
  | cons item items ih =>
    have legal := hi item (by simp)
    have rest (other : Item) (hm : other ∈ items) : other.Legal := hi other (by simp [hm])
    rw [List.flatMap_cons, List.append_assoc item.text] at h ⊢
    -- What follows the item is read with the item moved into the text before it.
    have moved : source = before ++ run ++ item.text ++ [] ++ (items.flatMap Item.text ++ ending.text) := by
      rw [h]
      simp
    have later := ih rest moved
    rw [List.append_nil, Text.byteCount_append _ item.text] at later
    rw [Text.byteCount_append item.text, ← Nat.add_assoc]
    generalize (items.flatMap Item.text ++ ending.text) = after at *
    cases item with
    | literal c =>
      have done : Segment.completed source (Segment.runStart before run) (Text.byteCount (before ++ run))
          (.literal c) = .ok ([], Segment.runStart before (run ++ [c])) := by
        by_cases empty : run = [] <;> simp [Segment.completed, Segment.runStart, empty]
      have within : source = before ++ (run ++ [c]) ++ after := by
        rw [h]
        simp [Item.text]
      have longer := ih rest within
      rw [← List.append_assoc before, Text.byteCount_append _ [c], Text.byteCount_singleton] at longer
      exact (segments_skip (step_literal rfl legal _) done _).trans longer
    | percent =>
      refine (segments_escape h after).trans ?_
      change (start.segments source (Text.byteCount (before ++ run) + 2) none after).map _ = _
      rw [show start.segments source (Text.byteCount (before ++ run) + 2) none after = _ from later]
      generalize Result.ofError (ending.outcome _) = outcome
      cases outcome <;> rfl
    | clause clause =>
      refine (segments_clause legal h after).trans ?_
      rw [show start.segments source (Text.byteCount (before ++ run) + Text.byteCount clause.text) none after =
        _ from later]
      generalize Result.ofError (ending.outcome _) = outcome
      cases outcome <;> rfl

end Items

end Scanner

variable {source : String} {items : List Item} {ending : Ending}

/-- A text that ends behind an item is split into the segments of its items. -/
theorem Reading.scan (h : Reading source.toList items ending) :
    scan source = (Result.ofError h.outcome).map fun _ => Segment.ofItems 0 [] items := by
  have split : source.toList = [] ++ [] ++ (items.flatMap Item.text ++ ending.text) := h.spelled
  have whole := Scanner.segments_reading h.items_legal h.ending_legal split
  rw [← h.spelled, List.append_nil, Text.byteCount, Nat.zero_add] at whole
  exact whole

theorem Reading.lint (h : Reading source.toList items ending) :
    lint source =
      (Result.ofError h.outcome).map fun _ => (Segment.ofItems 0 [] items).flatMap Segment.notes := by
  rw [BraceTemplate.lint, h.scan]
  cases h.outcome <;> rfl

theorem Item.Spell.scan (h : Item.Spell items source) : scan source = .ok (Segment.ofItems 0 [] items) := by
  rw [h.reading.scan]
  rfl

theorem Item.Spell.lint (h : Item.Spell items source) :
    lint source = .ok ((Segment.ofItems 0 [] items).flatMap Segment.notes) := by
  rw [h.reading.lint]
  rfl

/-- The texts that are split into segments are the spellings of items. -/
theorem scan_eq_ok_iff {segments : List Segment} :
    scan source = .ok segments ↔ ∃ items, Item.Spell items source ∧ Segment.ofItems 0 [] items = segments := by
  constructor
  · intro ok
    obtain ⟨items, ending, reading⟩ := exists_reading source.toList
    rw [reading.scan] at ok
    cases ending with
    | complete => exact ⟨items, reading.spell, Except.ok.inj ok⟩
    | unterminated | refused => cases ok
  · rintro ⟨items, spell, rfl⟩
    exact spell.scan

end BraceTemplate
