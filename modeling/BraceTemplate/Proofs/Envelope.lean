import BraceTemplate.Json.Exchange
import BraceTemplate.Proofs.Location

/-! Envelopes of conversions. There is one for every text, with the notes on a text that is converted and the one
diagnostic of a text that is not. -/
namespace BraceTemplate

variable {source out : String} {failure : Failure}

/-- A text that is converted is noted on. -/
theorem exists_lint_of_convert (ok : convert source = .ok out) : ∃ notes, lint source = .ok notes := by
  cases noted : lint source with
  | ok notes => exact ⟨notes, rfl⟩
  | error failure => cases (lint_eq_error_iff.mp noted).symm.trans ok

/-- A text that is not converted has the error that is at fault, and its diagnostic. -/
theorem exists_diagnostic_of_convert (refused : convert source = .error failure) :
    ∃ error diagnostic, failure = .format error ∧ error.diagnostic = .ok diagnostic := by
  obtain ⟨error, span, marked, rfl, points⟩ := exists_pointsAt refused
  obtain ⟨diagnostic, made, -⟩ := FormatError.exists_diagnostic points.span_eq
  exact ⟨error, diagnostic, rfl, made⟩

namespace Envelope

theorem build_of_ok {notes : List Diagnostic} (ok : convert source = .ok out) (noted : lint source = .ok notes) :
    build source = .ok (.converted out notes) := by
  rw [build, ok, noted]
  rfl

theorem build_of_error {error : FormatError} {diagnostic : Diagnostic}
    (refused : convert source = .error (.format error)) (made : error.diagnostic = .ok diagnostic) :
    build source = .ok (.failed [diagnostic]) := by
  rw [build, refused, ← ofError_eq made]
  rfl

/-- Building an envelope breaks no promise. -/
theorem exists_build (source : String) : ∃ envelope, build source = .ok envelope := by
  cases converted : convert source with
  | ok out =>
    obtain ⟨notes, noted⟩ := exists_lint_of_convert converted
    exact ⟨_, build_of_ok converted noted⟩
  | error failure =>
    obtain ⟨error, diagnostic, rfl, made⟩ := exists_diagnostic_of_convert converted
    exact ⟨_, build_of_error converted made⟩

end Envelope

end BraceTemplate
