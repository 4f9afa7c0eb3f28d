import BraceTemplate.Diagnostic.Code
import BraceTemplate.Diagnostic.Context
import BraceTemplate.Span

/-! Diagnostics: what was found, how serious it is and which bytes of the format text it is about. -/
namespace BraceTemplate

/-- A finding about a format text. Its id need not be a registered one. -/
structure Diagnostic where
  id : String
  severity : Severity
  message : String
  span : Option Span
  context : Option Context
  deriving DecidableEq

namespace Diagnostic

/-- The explanation registered for `id`. -/
def explain? (id : String) : Option String := (Code.ofId? id).map Code.explanation

/-- The severity registered for `id`. -/
def severity? (id : String) : Option Severity := (Code.ofId? id).map Code.severity

/-- A finding under `id` with the severity registered for it. An unknown id counts as an error. -/
def ofId (id message : String) (span : Option Span) : Diagnostic :=
  ⟨id, (severity? id).getD .error, message, span, none⟩

/-- A finding under a registered code. -/
def ofCode (code : Code) (message : String) (span : Option Span) : Diagnostic :=
  ofId code.id message span

/-- The finding with a context. -/
def withContext (diagnostic : Diagnostic) (context : Context) : Diagnostic :=
  { diagnostic with context := some context }

/-- The finding in one line. -/
def summary (diagnostic : Diagnostic) : String :=
  diagnostic.severity.name ++ "[" ++ diagnostic.id ++ "]: " ++ diagnostic.message

end Diagnostic

end BraceTemplate
