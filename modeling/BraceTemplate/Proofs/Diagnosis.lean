import BraceTemplate.Proofs.Location

/-! Diagnoses. The id, the range and the context of a diagnostic say together which error it is about, so that
an error loses nothing but its wording when it is reported. -/
namespace BraceTemplate

namespace Text

/-- The character that a text consists of. -/
def char? (text : String) : Option Char :=
  match text.toList with
  | [c] => some c
  | _ => none

theorem char?_toString (c : Char) : char? c.toString = some c := by
  have single : c.toString.toList = [c] := String.toList_singleton c
  rw [char?, single]

end Text

namespace Decimal

/-- The number that a text of digits writes. -/
def ofText? (text : String) : Option Nat := (text.toList.mapM digit?).map (valueFrom 0)

theorem ofText?_text (n : Nat) : ofText? (text n) = some n := by
  obtain ⟨ds, spelled, value, -⟩ := exists_spell_digits n
  rw [ofText?, text, String.toList_ofList, spelled, mapM_digit?_spell, Option.map_some, value]

end Decimal

namespace Position

def all : List Position :=
  [outside, opened, flags, width, dot, precision] ++ LengthModifier.all.map length ++ [complete]

/-- The place that is described so. -/
def ofDescription? (text : String) : Option Position := all.find? (·.description == text)

theorem ofDescription?_description (position : Position) : ofDescription? position.description = some position := by
  cases position with
  | length modifier => cases modifier <;> rfl
  | _ => rfl

end Position

theorem Span.between_eq_ok_iff {start stop : Nat} {span : Option Span} :
    some <$> between start stop = .ok span ↔ start ≤ stop ∧ span = some ⟨start, stop⟩ := by
  rcases Nat.lt_or_ge stop start with inverted | ordered
  · rw [between, if_pos inverted]
    refine iff_of_false ?_ fun both => Nat.not_le_of_lt inverted both.1
    intro same
    cases same
  · rw [between_of_le ordered, and_iff_right ordered]
    exact ⟨fun same => (Except.ok.inj same).symm, fun same => congrArg Except.ok same.symm⟩

theorem Code.mem_all (code : Code) : code ∈ all := by
  cases code <;> decide

theorem Code.ofId?_id (code : Code) : ofId? code.id = some code := by
  cases code <;> rfl

private theorem Diagnostic.severity_ofCode (code : Code) (message : String) (span : Option Span) :
    (ofCode code message span).severity = code.severity := by
  cases code <;> rfl

/-- The text under a key. -/
def Context.get? (context : Context) (key : String) : Option String := context.entries.lookup key

namespace FormatError

/-- The error that a diagnostic with this id, this range and this context is about. -/
def ofDiagnosis? (id : String) (span : Option Span) (context : Option Context) : Option FormatError := do
  let entry (key : String) : Option String := context.bind (·.get? key)
  match ← Code.ofId? id with
  | .invalidFlag => some (.invalidFlag (← Text.char? (← entry "flag")) (← span).start)
  | .invalidCharacter =>
    some (.invalidCharacter (← Text.char? (← entry "found")) (← Position.ofDescription? (← entry "state"))
      (← span).start)
  -- The range ends where the digit is missing. Its start is the dot, unless nothing is in front.
  | .missingPrecision => some (.missingPrecision (← span).stop)
  | .unterminated => some (.unterminated (← span).start (← span).stop)
  | .unknownConversion => some (.unknownConversion (← Text.char? (← entry "found")) (← span).start)
  | .noEquivalent => some (.noEquivalent (← Text.char? (← entry "conversion")) (← span).start)
  | .capacityExceeded =>
    some (.capacityExceeded (← Decimal.ofText? (← entry "capacity")) (← Decimal.ofText? (← entry "required")))
  | .numericOverflow => some (.numericOverflow (← span).start)
  | .lossyApproximation => none

/-- The range of the error is not inverted. Only the error of an unfinished specifier names both of its ends. -/
def Ordered : FormatError → Prop
  | unterminated start stop => start ≤ stop
  | _ => True

variable {error : FormatError} {diagnostic : Diagnostic}

private theorem exists_span_iff : (∃ span, error.span = .ok span) ↔ error.Ordered := by
  have made {start stop : Nat} (h : start ≤ stop) : ∃ span, some <$> Span.between start stop = .ok span :=
    ⟨_, Span.between_eq_ok_iff.mpr ⟨h, rfl⟩⟩
  cases error with
  | invalidFlag | invalidCharacter | unknownConversion | noEquivalent | numericOverflow =>
    exact iff_of_true (made (Nat.le_add_right _ _)) trivial
  | missingPrecision offset => exact iff_of_true (made (Nat.sub_le offset 1)) trivial
  | capacityExceeded => exact iff_of_true ⟨none, rfl⟩ trivial
  | unterminated start stop => exact ⟨fun ⟨_, located⟩ => (Span.between_eq_ok_iff.mp located).1, made⟩

/-- The parts of the diagnostic of an error. -/
theorem parts_of_diagnostic (h : error.diagnostic = .ok diagnostic) :
    diagnostic.id = error.code.id ∧ diagnostic.severity = error.code.severity ∧
      error.span = .ok diagnostic.span ∧ diagnostic.context = error.context := by
  cases located : error.span with
  | error fault =>
    rw [FormatError.diagnostic, located] at h
    cases h
  | ok span =>
    obtain rfl := Except.ok.inj ((diagnostic_of_span located).symm.trans h)
    have severity := Diagnostic.severity_ofCode error.code error.message span
    cases error.context with
    | none => exact ⟨rfl, severity, rfl, rfl⟩
    | some context => exact ⟨rfl, severity, rfl, rfl⟩

private theorem severity_code (error : FormatError) : error.code.severity = .error := by
  cases error <;> rfl

private theorem context_eq_none_iff :
    error.context = none ↔ error.code ∈ [.missingPrecision, .unterminated, .numericOverflow] := by
  cases error <;> simp [context, code]

/-- An error is read back from the id of its code, its range and its context. -/
theorem ofDiagnosis?_parts {span : Option Span} (located : error.span = .ok span) :
    ofDiagnosis? error.code.id span error.context = some error := by
  have placed {start stop : Nat} (h : some <$> Span.between start stop = .ok span) : span = some ⟨start, stop⟩ :=
    (Span.between_eq_ok_iff.mp h).2
  rw [ofDiagnosis?, Code.ofId?_id]
  cases error with
  | invalidFlag c offset | unknownConversion c offset | noEquivalent c offset =>
    obtain rfl := placed located
    exact congrArg (Option.bind · _) (Text.char?_toString c)
  | invalidCharacter c position offset =>
    obtain rfl := placed located
    change (do
      let found ← Text.char? c.toString
      let position ← Position.ofDescription? position.description
      some (invalidCharacter found position offset)) = _
    rw [Text.char?_toString, Position.ofDescription?_description]
    rfl
  | capacityExceeded capacity required =>
    change (do
      let capacity ← Decimal.ofText? (Decimal.text capacity)
      let required ← Decimal.ofText? (Decimal.text required)
      some (capacityExceeded capacity required)) = _
    rw [Decimal.ofText?_text, Decimal.ofText?_text]
    rfl
  | missingPrecision offset | unterminated start stop | numericOverflow offset =>
    obtain rfl := placed located
    rfl

/-- The diagnostic reports the error under a registered id, and whoever reads its id, its range and its context
knows which error it was. -/
structure ReportedBy (error : FormatError) (diagnostic : Diagnostic) : Prop where
  registered : ∃ code ∈ Code.all, code.id = diagnostic.id ∧ code.severity = .error
  explained : (Diagnostic.explain? diagnostic.id).isSome
  severity : diagnostic.severity = .error
  context_eq_none_iff :
    diagnostic.context = none ↔ error.code ∈ [.missingPrecision, .unterminated, .numericOverflow]
  read : ofDiagnosis? diagnostic.id diagnostic.span diagnostic.context = some error

private theorem reportedBy_diagnostic (h : error.diagnostic = .ok diagnostic) : error.ReportedBy diagnostic := by
  obtain ⟨id, severity, located, context⟩ := parts_of_diagnostic h
  have registered := error.severity_code
  refine ⟨⟨error.code, error.code.mem_all, id.symm, registered⟩, ?_, severity.trans registered, ?_, ?_⟩
  · rw [id, Diagnostic.explain?, Code.ofId?_id]
    rfl
  · rw [context, context_eq_none_iff]
  · rw [id, context, ofDiagnosis?_parts located]

private theorem exists_diagnostic_iff : (∃ diagnostic, error.diagnostic = .ok diagnostic) ↔ error.Ordered := by
  rw [← exists_span_iff]
  constructor
  · rintro ⟨diagnostic, made⟩
    exact ⟨_, (parts_of_diagnostic made).2.2.1⟩
  · rintro ⟨span, located⟩
    exact ⟨_, diagnostic_of_span located⟩

end FormatError

/-- Every error whose range is not inverted has a diagnostic, which reports it as an error under a registered and
explained id. No two errors have diagnostics with the same id, the same range and the same context, whatever
their wording, since the error can be read off these. -/
theorem errors_told_apart :
    (∀ error : FormatError, (∃ diagnostic, error.diagnostic = .ok diagnostic) ↔ error.Ordered) ∧
    ∀ (a : FormatError) (first : Diagnostic), a.diagnostic = .ok first → a.ReportedBy first ∧
      ∀ (b : FormatError) (second : Diagnostic), b.diagnostic = .ok second →
        (first.id = second.id ∧ first.span = second.span ∧ first.context = second.context ↔ a = b) := by
  refine ⟨fun _ => FormatError.exists_diagnostic_iff, ?_⟩
  intro a first madeFirst
  have reported := FormatError.reportedBy_diagnostic madeFirst
  refine ⟨reported, ?_⟩
  intro b second madeSecond
  constructor
  · rintro ⟨id, span, context⟩
    have read := reported.read
    rw [id, span, context, (FormatError.reportedBy_diagnostic madeSecond).read] at read
    exact (Option.some.inj read).symm
  · rintro rfl
    obtain rfl := Except.ok.inj (madeFirst.symm.trans madeSecond)
    exact ⟨rfl, rfl, rfl⟩

/-- Two errors about the same character, of which one stands behind `h` and the other behind `hh`, have diagnostics
that differ in their contexts and in nothing else that is read. -/
theorem errors_told_apart_of_length :
    ∃ first second : Diagnostic,
      (FormatError.invalidCharacter 'é' (.length .short) 3).diagnostic = .ok first ∧
      (FormatError.invalidCharacter 'é' (.length .char) 3).diagnostic = .ok second ∧
      first.id = second.id ∧ first.span = second.span ∧ first.context ≠ second.context := by
  obtain ⟨built, told⟩ := errors_told_apart
  obtain ⟨first, madeFirst⟩ := (built (.invalidCharacter 'é' (.length .short) 3)).mpr trivial
  obtain ⟨second, madeSecond⟩ := (built (.invalidCharacter 'é' (.length .char) 3)).mpr trivial
  obtain ⟨idFirst, -, spanFirst, -⟩ := FormatError.parts_of_diagnostic madeFirst
  obtain ⟨idSecond, -, spanSecond, -⟩ := FormatError.parts_of_diagnostic madeSecond
  have id : first.id = second.id := idFirst.trans idSecond.symm
  have span : first.span = second.span := Except.ok.inj (spanFirst.symm.trans spanSecond)
  refine ⟨first, second, madeFirst, madeSecond, id, span, ?_⟩
  intro context
  have same := ((told _ first madeFirst).2 _ second madeSecond).mp ⟨id, span, context⟩
  cases same

end BraceTemplate
