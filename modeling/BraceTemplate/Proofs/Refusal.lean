import BraceTemplate.Proofs.Denotation

/-! Where and why texts are refused. A text that is not converted ends in a clause that goes wrong: behind
the longest beginning of a clause stands a character that no clause has there, or nothing at all. -/
namespace BraceTemplate

/-- The spellings of escapes and of legal clauses. -/
def IsClause (text : List Char) : Prop :=
  text = ['%', '%'] ∨ ∃ clause : Clause, clause.Legal ∧ clause.text = text

def Viable (text : List Char) : Prop := ∃ rest, IsClause (text ++ rest)

namespace Stem

variable {stem : Stem} {c : Char}

/-- Every legal stem can be finished. -/
theorem Legal.viable (h : stem.Legal) : Viable stem.text := by
  by_cases dot : stem.precision = some []
  · obtain ⟨flags, width, precision, length⟩ := stem
    obtain rfl : precision = some [] := dot
    obtain rfl : length = none := h.length_eq_none rfl
    have zero : Grows ⟨flags, width, some [], none⟩ (Decimal.digitChar (0 : Fin 10)) ⟨flags, width, some [0], none⟩ :=
      .precision (Decimal.valueFrom_singleton_lt 0)
    refine ⟨[Decimal.digitChar 0, Conversion.integer.char], .inr ⟨_, (zero.legal h).clause (by simp) .integer, ?_⟩⟩
    rw [text_clause, zero.text, List.append_assoc]
    rfl
  · exact ⟨[Conversion.integer.char], .inr ⟨_, h.clause dot .integer, text_clause stem .integer⟩⟩

/-- What stands in a clause behind a stem is accepted there. -/
private theorem Legal.accepts_of_clause (h : stem.Legal) {clause : Clause} (legal : clause.Legal) {rest : List Char}
    (spelled : clause.text = stem.text ++ c :: rest) : stem.Accepts c := by
  rw [clause.text_eq_stem] at spelled
  rcases List.eq_nil_or_concat rest with rfl | ⟨rest, last, rfl⟩
  · obtain ⟨same, conversion⟩ := List.append_inj' spelled rfl
    obtain rfl : clause.stem = stem := legal.stem.text_inj h same
    exact .inr (.inl ⟨legal.precision_ne_nil, clause.conversion, (List.cons.inj conversion).1.symm⟩)
  · rw [List.concat_eq_append, ← List.cons_append, ← List.append_assoc] at spelled
    have longer : clause.stem.text = stem.text ++ c :: rest := (List.append_inj' spelled rfl).1
    exact .inl (h.grows_of_prefix legal.stem longer)

private theorem Legal.accepts_of_viable (h : stem.Legal) {rest : List Char} (viable : Viable (stem.text ++ c :: rest)) :
    stem.Accepts c := by
  obtain ⟨more, escape | ⟨clause, legal, spelled⟩⟩ := viable
  · rw [text_eq_cons, List.cons_append, List.cons_append] at escape
    have behind : stem.text.tail ++ (c :: rest) ++ more = ['%'] := (List.cons.inj escape).2
    rcases tail : stem.text.tail with _ | ⟨d, ds⟩
    · rw [tail] at behind
      have percent : c = '%' := (List.cons.inj behind).1
      have opened : stem.text = opened.text := by rw [text_eq_cons, tail]; rfl
      exact .inr (.inr ⟨h.text_inj legal_opened opened, percent⟩)
    · rw [tail] at behind
      simp at behind
  · rw [List.append_assoc] at spelled
    exact h.accepts_of_clause legal spelled

/-- A stem and a character that it accepts are the beginning of a clause. -/
private theorem Legal.viable_of_accepts (h : stem.Legal) (accepts : stem.Accepts c) : Viable (stem.text ++ [c]) := by
  rcases accepts with ⟨next, grows⟩ | ⟨digit, conversion, rfl⟩ | ⟨rfl, rfl⟩
  · rw [← grows.text]
    exact (grows.legal h).viable
  · refine ⟨[], .inr ⟨_, h.clause digit conversion, ?_⟩⟩
    rw [List.append_nil, text_clause]
  · exact ⟨[], .inl rfl⟩

private theorem Legal.not_isClause (h : stem.Legal) : ¬ IsClause stem.text := by
  rintro (escape | ⟨clause, legal, spelled⟩)
  · have reads := h.reads
    rw [escape] at reads
    cases reads with
    | cons grows _ => exact grows.symbol_ne.1 Symbol.ofChar_percent
  · rw [clause.text_eq_stem] at spelled
    obtain ⟨next, grows⟩ := legal.stem.grows_of_prefix h spelled.symm
    exact grows.symbol_ne.2 _ (Symbol.ofChar_conversionChar _)

private theorem Legal.accepts_digit (h : stem.Legal) (dot : stem.precision = some []) (d : Fin 10) :
    stem.Accepts (Decimal.digitChar d) := by
  obtain ⟨flags, width, precision, length⟩ := stem
  obtain rfl : precision = some [] := dot
  obtain rfl : length = none := h.length_eq_none rfl
  exact .inl ⟨_, .precision (Decimal.valueFrom_singleton_lt d)⟩

end Stem

namespace Scanner

/-- The scanner after characters that are offered one after the other, the first at byte `offset`. -/
def advance (scanner : Scanner) (offset : Nat) : List Char → Scanner
  | [] => scanner
  | c :: rest => (scanner.offer offset c).2.advance (offset + c.utf8Size) rest

variable {scanner : Scanner}

private theorem advance_cons {step : Step} {next : Scanner} {offset : Nat} {c : Char}
    (h : scanner.step offset c = .ok (step, next)) (rest : List Char) :
    scanner.advance offset (c :: rest) = next.advance (offset + c.utf8Size) rest := by
  rw [advance, offer, h]

private theorem advance_append (front back : List Char) (offset : Nat) :
    scanner.advance offset (front ++ back) =
      (scanner.advance offset front).advance (offset + Text.byteCount front) back := by
  induction front generalizing scanner offset with
  | nil => rfl
  | cons c front ih => rw [List.cons_append, advance, advance, ih, Text.byteCount, Nat.add_assoc]

private theorem advance_reads {stem last : Stem} {read : List Char} (h : Stem.Reads stem read last) (hs : stem.Legal)
    (clauseStart offset : Nat) : (stem.scanner clauseStart).advance offset read = last.scanner clauseStart := by
  induction h generalizing offset with
  | refl => rfl
  | cons grows _ ih => rw [advance_cons (grows.step hs clauseStart offset), ih (grows.legal hs)]

private theorem advance_stem (h : scanner.position = .outside) {stem : Stem} (hs : stem.Legal) (offset : Nat) :
    scanner.advance offset stem.text = stem.scanner offset := by
  rw [stem.text_eq_cons, advance_cons (step_open h offset), advance_reads hs.reads Stem.legal_opened]

private theorem position_advance_item (h : scanner.position = .outside) {item : Item} (legal : item.Legal)
    (offset : Nat) : (scanner.advance offset item.text).position = .outside := by
  cases item with
  | literal c =>
    rw [Item.text, advance_cons (step_literal h legal offset)]
    exact h
  | percent =>
    rw [Item.text, advance_cons (step_open h offset), advance_cons (Stem.step_percent offset _)]
    rfl
  | clause clause =>
    have digit : clause.stem.precision ≠ some [] := legal.precision_ne_nil
    have close := Stem.step_conversion digit clause.conversion
      (Nat.le_add_right offset (Text.byteCount clause.stem.text))
    rw [Item.text, clause.text_eq_stem, advance_append, advance_stem h (Clause.Legal.stem legal), advance_cons close]
    rfl

private theorem position_advance_items (h : scanner.position = .outside) {items : List Item}
    (legal : ∀ item ∈ items, item.Legal) (offset : Nat) :
    (scanner.advance offset (items.flatMap Item.text)).position = .outside := by
  induction items generalizing scanner offset with
  | nil => exact h
  | cons item items ih =>
    rw [List.flatMap_cons, advance_append]
    exact ih (position_advance_item h (legal item (by simp)) offset) (fun other hm => legal other (by simp [hm])) _

end Scanner

namespace Stem

/-- A stem is the longest beginning of a clause exactly if it does not accept what stands behind it. -/
theorem Legal.longest_iff {stem : Stem} (h : stem.Legal) {tail : List Char} :
    (∀ text, text <+: stem.text ++ tail → Viable text → text <+: stem.text) ↔
      ∀ c ∈ tail.head?, ¬ stem.Accepts c := by
  constructor
  · intro longest c head accepts
    obtain ⟨rest, rfl⟩ : ∃ rest, tail = c :: rest := List.head?_eq_some_iff.mp head
    have shorter := longest (stem.text ++ [c]) ⟨rest, by simp⟩ (h.viable_of_accepts accepts)
    have lengths := shorter.length_le
    rw [List.length_append, List.length_singleton] at lengths
    omega
  · intro stuck text front viable
    rcases List.prefix_or_prefix_of_prefix front (List.prefix_append stem.text tail) with within | ⟨more, rfl⟩
    · exact within
    · cases more with
      | nil => exact ⟨[], by simp⟩
      | cons c more =>
        obtain ⟨rest, split⟩ := (List.prefix_append_right_inj stem.text).mp front
        exact absurd (h.accepts_of_viable viable) (stuck c (by rw [← split]; rfl))

/-- The fault of a clause that begins at byte `start` of a text of `stop` bytes and goes wrong at `tail`
behind the stem. -/
def fault (stem : Stem) (start stop : Nat) : List Char → FormatError
  | [] => .unterminated start stop
  | c :: _ => stem.refusal c (start + Text.byteCount stem.text)

def ending (stem : Stem) : List Char → Ending
  | [] => .unterminated stem
  | c :: rest => .refused stem c rest

private theorem text_ending (stem : Stem) (tail : List Char) : (stem.ending tail).text = stem.text ++ tail := by
  cases tail with
  | nil => exact (List.append_nil _).symm
  | cons c rest => rfl

private theorem outcome_ending (stem : Stem) (tail : List Char) (start : Nat) :
    (stem.ending tail).outcome start =
      .error (stem.fault start (start + Text.byteCount (stem.text ++ tail)) tail) := by
  cases tail with
  | nil => rw [List.append_nil]; rfl
  | cons c rest => rfl

private theorem legal_ending_iff {stem : Stem} {tail : List Char} :
    (stem.ending tail).Legal ↔ stem.Legal ∧ ∀ c ∈ tail.head?, ¬ stem.Accepts c := by
  cases tail <;> simp [ending, Ending.Legal]

end Stem

/-- An ending is a stem and what stands behind it, unless nothing is left. -/
theorem Ending.eq_complete_or (ending : Ending) : ending = .complete ∨ ∃ stem tail, ending = Stem.ending stem tail := by
  cases ending with
  | complete => exact .inl rfl
  | unterminated stem => exact .inr ⟨stem, [], rfl⟩
  | refused stem c rest => exact .inr ⟨stem, c :: rest, rfl⟩

/-- The clause behind `before` in which `source` goes wrong: `stem` is the longest beginning of a clause
there, no clause yet, and `tail` is what stands behind it. -/
structure RefusedAt (source : String) (before : List Char) (stem : Stem) (tail : List Char) : Prop where
  split : source.toList = before ++ (stem.text ++ tail)
  converts : ∃ out, convert (String.ofList before) = .ok out
  legal : stem.Legal
  viable : Viable stem.text
  unfinished : ¬ IsClause stem.text
  longest : ∀ text, text <+: stem.text ++ tail → Viable text → text <+: stem.text

variable {source : String} {before tail : List Char} {stem : Stem}

/-- The text before the clause is items, and the clause is the ending. -/
theorem RefusedAt.reading (h : RefusedAt source before stem tail) :
    ∃ items, before = items.flatMap Item.text ∧ Reading source.toList items (stem.ending tail) := by
  obtain ⟨out, converts⟩ := h.converts
  obtain ⟨items, spell, -⟩ := exists_spell_of_convert converts
  have spelled := spell.spelled
  rw [String.toList_ofList] at spelled
  refine ⟨items, spelled, spell.legal, Stem.legal_ending_iff.mpr ⟨h.legal, h.legal.longest_iff.mp h.longest⟩, ?_⟩
  rw [Stem.text_ending, ← spelled, h.split]

theorem Reading.refusedAt {items : List Item} (h : Reading source.toList items (stem.ending tail)) :
    RefusedAt source (items.flatMap Item.text) stem tail := by
  obtain ⟨legal, stuck⟩ := Stem.legal_ending_iff.mp h.ending_legal
  have spell : Item.Spell items (String.ofList (items.flatMap Item.text)) :=
    ⟨h.items_legal, String.toList_ofList⟩
  refine ⟨?_, ⟨_, spell.convert⟩, legal, legal.viable, legal.not_isClause, legal.longest_iff.mpr stuck⟩
  rw [h.spelled, Stem.text_ending]

/-- A clause that goes wrong is reported by what stands behind the longest beginning of a clause. -/
theorem RefusedAt.convert (h : RefusedAt source before stem tail) :
    convert source = .error (.format (stem.fault (Text.byteCount before) source.utf8ByteSize tail)) := by
  have size : source.utf8ByteSize = Text.byteCount before + Text.byteCount (stem.text ++ tail) := by
    rw [← Text.byteCount_toList, h.split, Text.byteCount_append]
  obtain ⟨items, rfl, reading⟩ := h.reading
  rw [reading.convert, Reading.outcome, Stem.outcome_ending, size]
  rfl

theorem RefusedAt.advance (h : RefusedAt source before stem tail) :
    (Scanner.start.advance 0 (before ++ stem.text)).position = stem.position := by
  obtain ⟨items, rfl, reading⟩ := h.reading
  have started : Scanner.start.position = .outside := rfl
  have outside := Scanner.position_advance_items started reading.items_legal 0
  rw [Scanner.advance_append, Scanner.advance_stem outside h.legal]
  rfl

private theorem RefusedAt.digit?_eq_none (h : RefusedAt source before stem tail) (dot : stem.precision = some [])
    (c : Char) (head : c ∈ tail.head?) : Decimal.digit? c = none := by
  apply Option.eq_none_iff_forall_ne_some.mpr
  intro d digit
  have accepts := h.legal.accepts_digit dot d
  rw [← Decimal.eq_digitChar_of_digit? digit] at accepts
  exact h.legal.longest_iff.mp h.longest c head accepts

/-- Conversion fails exactly in a clause that goes wrong, and the place decides the error: the clause is
unterminated if the text ends there, and otherwise the offending character is refused for the first of
the reasons that apply. The scanner is then where the stem has led it. -/
theorem convert_eq_error_iff (source : String) (failure : Failure) :
    convert source = .error failure ↔
      ∃ before stem tail, RefusedAt source before stem tail ∧
        (Scanner.start.advance 0 (before ++ stem.text)).position = stem.position ∧
        (stem.precision = some [] → ∀ c ∈ tail.head?, Decimal.digit? c = none) ∧
        failure = .format (stem.fault (Text.byteCount before) source.utf8ByteSize tail) := by
  constructor
  · intro refused
    obtain ⟨items, ending, reading⟩ := exists_reading source.toList
    rcases ending.eq_complete_or with rfl | ⟨stem, tail, rfl⟩
    · rw [reading.convert] at refused
      cases refused
    · have place := reading.refusedAt
      exact ⟨_, stem, tail, place, place.advance, place.digit?_eq_none,
        Except.error.inj (refused.symm.trans place.convert)⟩
  · rintro ⟨before, stem, tail, place, -, -, rfl⟩
    exact place.convert

end BraceTemplate
