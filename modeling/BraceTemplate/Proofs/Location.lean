import BraceTemplate.CommandLine
import BraceTemplate.Proofs.Cover
import BraceTemplate.Proofs.Capacity
import BraceTemplate.Proofs.Refusal

/-! The places that errors point to. An error about the text names a range that covers the characters at fault,
and a report underlines and quotes these. -/
namespace BraceTemplate

namespace FormatError

/-- What the error says about the text at its range. -/
def Shows (error : FormatError) (source : String) (marked : List Char) : Prop :=
  match error with
  | invalidFlag c _ | invalidCharacter c _ _ | unknownConversion c _ | noEquivalent c _ => marked = [c]
  | missingPrecision _ => marked = ['.']
  | numericOverflow _ => ∃ c : Char, c.isDigit ∧ marked = [c]
  | unterminated _ stop => stop = source.utf8ByteSize ∧ marked.head? = some '%'
  | capacityExceeded .. => False

theorem diagnostic_of_span {error : FormatError} {span : Option Span} (h : error.span = .ok span) :
    error.diagnostic = .ok (error.context.elim (.ofCode error.code error.message span)
      (Diagnostic.ofCode error.code error.message span).withContext) := by
  rw [diagnostic, h]
  rfl

theorem exists_diagnostic {error : FormatError} {span : Span} (h : error.span = .ok (some span)) :
    ∃ diagnostic, error.diagnostic = .ok diagnostic ∧ diagnostic.span = some span := by
  refine ⟨_, diagnostic_of_span h, ?_⟩
  cases error.context <;> rfl

/-- The error is about the range `span`, which covers the characters `marked` that are at fault. -/
structure PointsAt (error : FormatError) (source : String) (span : Span) (marked : List Char) : Prop where
  span_eq : error.span = .ok (some span)
  covers : span.Covers source marked
  shows : error.Shows source marked

end FormatError

section Refusal

variable {source : String} {before after : List Char}

/-- An error points at the piece of the text whose bytes it names. -/
private theorem FormatError.pointsAt_of_split {error : FormatError} {piece : List Char}
    (split : source.toList = before ++ piece ++ after) (shows : error.Shows source piece) (hne : piece ≠ [])
    (hspan : error.span =
      some <$> Span.between (Text.byteCount before) (Text.byteCount before + Text.byteCount piece)) :
    ∃ span marked, error.PointsAt source span marked := by
  refine ⟨_, piece, ?_, Span.covers_of_split split hne, shows⟩
  rw [hspan, Span.between_of_le (Nat.le_add_right _ _)]
  rfl

/-- A stem that wants a digit ends in its dot. -/
private theorem Stem.Legal.exists_dot {stem : Stem} (h : stem.Legal) (dot : stem.precision = some []) :
    ∃ front, stem.text = front ++ ['.'] := by
  obtain ⟨flags, width, precision, length⟩ := stem
  obtain rfl : precision = some [] := dot
  obtain rfl : length = none := h.length_eq_none rfl
  exact ⟨'%' :: flags.map Flag.char ++ Decimal.spell width, by simp [text]⟩

/-- The fault of a character points at the dot before it where a digit is missing, and else at the character. -/
private theorem Stem.Legal.refusal_pointsAt {stem : Stem} (h : stem.Legal) {c : Char}
    (split : source.toList = before ++ (stem.text ++ c :: after)) :
    ∃ span marked, (stem.refusal c (Text.byteCount before + Text.byteCount stem.text)).PointsAt source span marked := by
  have atChar : source.toList = before ++ stem.text ++ [c] ++ after := by
    rw [split]
    simp
  have points {error : FormatError} (shows : error.Shows source [c])
      (hspan : error.span = some <$> Span.between (Text.byteCount (before ++ stem.text))
        (Text.byteCount (before ++ stem.text) + c.utf8Size)) :
      ∃ span marked, error.PointsAt source span marked :=
    FormatError.pointsAt_of_split atChar shows (List.cons_ne_nil _ _) hspan
  unfold refusal
  rw [← Text.byteCount_append]
  split
  · next dot =>
    obtain ⟨front, ends⟩ := h.exists_dot dot
    have atDot : source.toList = before ++ front ++ ['.'] ++ c :: after := by
      rw [split, ends]
      simp
    refine FormatError.pointsAt_of_split atDot rfl (List.cons_ne_nil _ _) ?_
    rw [ends, ← List.append_assoc, Text.byteCount_append _ ['.']]
    rfl
  split
  · exact points rfl rfl
  split
  · next large =>
    obtain ⟨d, digit, -⟩ := (Option.any_eq_true _ _).mp large
    obtain rfl := Decimal.eq_digitChar_of_digit? digit
    refine points ⟨_, Decimal.isDigit_digitChar d, rfl⟩ ?_
    rw [Decimal.utf8Size_digitChar]
    rfl
  split
  · exact points rfl rfl
  split
  · exact points rfl rfl
  · exact points rfl rfl

/-- The fault of a clause points at what stands behind its stem, or at the stem where the text ends. -/
private theorem RefusedAt.pointsAt {stem : Stem} {tail : List Char} (h : RefusedAt source before stem tail) :
    ∃ span marked, (stem.fault (Text.byteCount before) source.utf8ByteSize tail).PointsAt source span marked := by
  have split := h.split
  cases tail with
  | nil =>
    have rest : source.toList = before ++ stem.text ++ [] := by rw [split, List.append_assoc]
    have size : source.utf8ByteSize = Text.byteCount before + Text.byteCount stem.text := by
      rw [← Text.byteCount_toList, rest, List.append_nil, Text.byteCount_append]
    have opens : stem.text.head? = some '%' := by rw [stem.text_eq_cons]; rfl
    refine FormatError.pointsAt_of_split rest ⟨rfl, opens⟩ ?_ ?_
    · rw [stem.text_eq_cons]
      exact List.cons_ne_nil _ _
    · rw [← size]
      rfl
  | cons c after => exact h.legal.refusal_pointsAt split

end Refusal

section Operations

variable {source : String} {failure : Failure}

theorem exists_pointsAt (h : convert source = .error failure) :
    ∃ error span marked, failure = .format error ∧ error.PointsAt source span marked := by
  obtain ⟨items, ending, reading⟩ := exists_reading source.toList
  rcases ending.eq_complete_or with rfl | ⟨stem, tail, rfl⟩
  · rw [reading.convert] at h
    cases h
  · have place := reading.refusedAt
    obtain ⟨span, marked, points⟩ := place.pointsAt
    exact ⟨_, span, marked, Except.error.inj (h.symm.trans place.convert), points⟩

theorem scan_eq_error_iff : scan source = .error failure ↔ convert source = .error failure := by
  obtain ⟨items, ending, reading⟩ := exists_reading source.toList
  rw [reading.scan, reading.convert, Result.map_eq_error_iff, Result.map_eq_error_iff]

theorem lint_eq_error_iff : lint source = .error failure ↔ convert source = .error failure := by
  obtain ⟨items, ending, reading⟩ := exists_reading source.toList
  rw [reading.lint, reading.convert, Result.map_eq_error_iff, Result.map_eq_error_iff]

private theorem estimate_exact_eq_error_iff :
    estimateCapacity source .exact = .error failure ↔ convert source = .error failure := by
  rw [estimate_exact, Result.map_eq_error_iff]

/-- Storage fails for its size or as the growing conversion does. -/
theorem convertInto_eq_error {storage : ByteArray} (h : (convertInto source storage).1 = .error failure) :
    convert source = .error failure ∨ ∃ limit required, failure = .format (.capacityExceeded limit required) := by
  obtain ⟨items, ending, reading⟩ := exists_reading source.toList
  rcases Nat.lt_or_ge storage.size (writtenBytes source) with full | room
  · obtain ⟨required, next, conversion, -⟩ := reading.convertInto_of_lt full
    rw [conversion] at h
    exact .inr ⟨_, required, (Except.error.inj h).symm⟩
  · obtain ⟨next, conversion, -⟩ := reading.convertInto_of_le room
    rw [conversion] at h
    rw [reading.convert, Result.map_eq_error_iff]
    exact .inl h

private theorem convertSized_eq_error {capacity : Nat} (h : convertSized source capacity = .error failure) :
    convert source = .error failure ∨ ∃ limit required, failure = .format (.capacityExceeded limit required) :=
  convertInto_eq_error (Result.map_eq_error_iff.mp h)

theorem convertFixed_eq_error {capacity : Option Nat} {policy : CapacityPolicy}
    (h : convertFixed source capacity policy = .error failure) :
    convert source = .error failure ∨ ∃ limit required, failure = .format (.capacityExceeded limit required) := by
  cases capacity with
  | some hint =>
    rw [convertFixed_hint] at h
    exact convertSized_eq_error h
  | none =>
    cases chosen : estimateCapacity source policy with
    | ok capacity =>
      rw [convertFixed_policy chosen] at h
      exact convertSized_eq_error h
    | error other =>
      obtain ⟨fixed, grown⟩ := convertFixed_of_estimate_error chosen
      obtain rfl : other = failure := Except.error.inj (fixed.symm.trans h)
      exact .inl grown

end Operations

namespace Report

variable {source : String} {span : Span} {marked : List Char}

/-- A range that covers something lies in the text, so nothing is cut off. -/
theorem clamp_of_covers (h : span.Covers source marked) : clamp source span = span := by
  have start : min span.start source.utf8ByteSize = span.start :=
    Nat.min_eq_left (Nat.le_trans (Nat.le_of_lt h.start_lt_stop) h.stop_le)
  rw [clamp, start, Nat.min_eq_left h.stop_le, Nat.max_eq_left (Nat.le_of_lt h.start_lt_stop)]

private theorem label_of_covers (h : span.Covers source marked) :
    label (underlined source span) = "here: " ++ Text.quote (String.ofList marked) := by
  rw [underlined, clamp_of_covers h, h.slice]
  cases marked with
  | nil => exact absurd rfl h.ne_nil
  | cons c rest => rfl

private theorem exists_join_lines_eq {lines : List String} {indent text : String} (h : indent ++ text ∈ lines) :
    ∃ above below, String.join (lines.map (· ++ "\n")) = above ++ text ++ "\n" ++ below := by
  obtain ⟨front, back, rfl⟩ := List.append_of_mem h
  refine ⟨String.join (front.map (· ++ "\n")) ++ indent, String.join (back.map (· ++ "\n")), ?_⟩
  rw [List.map_append, List.map_cons, String.join_append, String.join_cons]
  simp only [String.append_assoc]

/-- A line of the report ends in the label. -/
private theorem exists_annotated_eq (source : String) (diagnostic : Diagnostic) (span : Span) :
    ∃ above below, annotated source diagnostic span = above ++ label (underlined source span) ++ "\n" ++ below := by
  unfold annotated
  apply exists_join_lines_eq
  apply List.mem_append_left
  apply List.mem_append_left
  exact .tail _ (.tail _ (.tail _ (.tail _ (.tail _ (.head _)))))

end Report

theorem Envelope.ofError_eq {error : FormatError} {diagnostic : Diagnostic} (made : error.diagnostic = .ok diagnostic) :
    ofError error = .ok (.failed [diagnostic]) := by
  rw [ofError, made]
  rfl

namespace CommandLine

variable {source : String} {fixed : Option (Option Nat × CapacityPolicy)} {error : FormatError}

/-- Programs that fail with an error about the text fail as the growing conversion does. -/
private theorem convert_of_template_eq_error {span : Span} (h : template source fixed = .error (.format error))
    (located : error.span = .ok (some span)) : convert source = .error (.format error) := by
  cases fixed with
  | none => exact h
  | some sizing =>
    obtain ⟨capacity, policy⟩ := sizing
    rcases convertFixed_eq_error (Result.map_eq_error_iff.mp h) with refused | ⟨limit, required, full⟩
    · exact refused
    · cases full
      cases located

theorem converted_of_error {diagnostic : Diagnostic} (h : template source fixed = .error (.format error))
    (made : error.diagnostic = .ok diagnostic) (mode : OutputMode) :
    converted mode source fixed = reported mode source (.failed [diagnostic]) := by
  rw [converted, h]
  simp only [Envelope.ofError_eq made]

/-- An error about a range is reported with the text there underlined. -/
private theorem exists_converted_eq {span : Span} (h : template source fixed = .error (.format error))
    (located : error.span = .ok (some span)) :
    ∃ diagnostic, converted .pretty source fixed = ⟨1, "", Report.annotated source diagnostic span⟩ := by
  obtain ⟨diagnostic, made, there⟩ := error.exists_diagnostic located
  have rendered : String.join ([diagnostic].map (Report.render source)) = Report.annotated source diagnostic span := by
    rw [List.map_singleton, Report.render, there, String.join_cons, String.join_nil, String.append_empty]
  exact ⟨diagnostic, by rw [converted_of_error h made, reported, rendered]⟩

end CommandLine

/-- Every error about the text points at real text, with whichever operation it is met, and the program
quotes that text in its report so that it can be read back. -/
theorem failures_point_at_text (source : String) :
    (∀ failure,
      (scan source = .error failure ↔ convert source = .error failure) ∧
      (lint source = .error failure ↔ convert source = .error failure) ∧
      (estimateCapacity source .exact = .error failure ↔ convert source = .error failure)) ∧
    (∀ failure, convert source = .error failure →
      ∃ error span marked, failure = .format error ∧ error.PointsAt source span marked) ∧
    ∀ fixed error span, CommandLine.template source fixed = .error (.format error) →
      error.span = .ok (some span) →
        Report.clamp source span = span ∧
        ∃ marked, error.PointsAt source span marked ∧
          Report.label (Report.underlined source span) = "here: " ++ Text.quote (String.ofList marked) ∧
          Text.unquote? (Text.quote (String.ofList marked)) = some (String.ofList marked) ∧
          ∃ above below, CommandLine.converted .pretty source fixed =
            ⟨1, "", above ++ Report.label (Report.underlined source span) ++ "\n" ++ below⟩ := by
  refine ⟨fun failure => ⟨scan_eq_error_iff, lint_eq_error_iff, estimate_exact_eq_error_iff⟩,
    fun failure => exists_pointsAt, ?_⟩
  intro fixed error span refused located
  obtain ⟨other, place, marked, same, points⟩ :=
    exists_pointsAt (CommandLine.convert_of_template_eq_error refused located)
  obtain rfl : error = other := Failure.format.inj same
  obtain rfl : place = span := Option.some.inj (Except.ok.inj (points.span_eq.symm.trans located))
  obtain ⟨diagnostic, printed⟩ := CommandLine.exists_converted_eq refused located
  obtain ⟨above, below, annotated⟩ := Report.exists_annotated_eq source diagnostic place
  refine ⟨Report.clamp_of_covers points.covers, marked, points, Report.label_of_covers points.covers,
    Text.unquote?_quote _, above, below, ?_⟩
  rw [printed, annotated]

/-- The dot is quoted that wants a digit, not the wider character behind it. -/
theorem failures_point_at_text_of_missing_digit :
    (∃ error span marked, Failure.format (.missingPrecision 4) = .format error ∧
      error.PointsAt "é%.é" span marked) ∧
    Report.clamp "é%.é" ⟨3, 4⟩ = ⟨3, 4⟩ ∧
    ∃ marked, (FormatError.missingPrecision 4).PointsAt "é%.é" ⟨3, 4⟩ marked ∧
      Report.label (Report.underlined "é%.é" ⟨3, 4⟩) = "here: " ++ Text.quote (String.ofList marked) ∧
      Text.unquote? (Text.quote (String.ofList marked)) = some (String.ofList marked) ∧
      ∃ above below, CommandLine.converted .pretty "é%.é" none =
        ⟨1, "", above ++ Report.label (Report.underlined "é%.é" ⟨3, 4⟩) ++ "\n" ++ below⟩ := by
  obtain ⟨-, failing, reports⟩ := failures_point_at_text "é%.é"
  exact ⟨failing _ (by decide), reports none _ ⟨3, 4⟩ (by decide) rfl⟩

end BraceTemplate
