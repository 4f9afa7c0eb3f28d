import BraceTemplate.Diagnostic
import BraceTemplate.Text.Quoted
import BraceTemplate.Text.Utf8

/-! Diagnostics for people: the line of the format text that a diagnostic is about, with the bytes in
question underlined, and below it the explanation and the context. -/
namespace BraceTemplate.Report

/-- The name under which reports show the format text. -/
def sourceName : String := "<format>"

/-- A text of `n` equal characters. -/
def repeated (n : Nat) (c : Char) : String := String.ofList (List.replicate n c)

/-- The word for a severity in the heading of a report. -/
def heading : Severity → String
  | .error => "Error"
  | .warning => "Warning"
  | .info => "Advice"

/-- The context on one line, texts quoted. -/
def contextNote (context : Context) : String :=
  ", ".intercalate (context.entries.map fun (key, value) => key ++ "=" ++ Text.quote value)

/-- The label of an underlined text. -/
def label (text : Option (List Char)) : String :=
  match text with
  | none | some [] => "end of format string"
  | some text => "here: " ++ Text.quote (String.ofList text)

/-- The place of a range in its text: line number from one, column from zero, and the whole line
without its line end. -/
structure Place where
  line : Nat
  column : Nat
  text : List Char

/-- The place at which `rest` follows `before`. -/
def Place.between (before rest : List Char) : Place :=
  let opening := (before.reverse.takeWhile (· != '\n')).reverse
  { line := before.count '\n' + 1
    column := opening.length
    text := opening ++ rest.takeWhile (· != '\n') }

/-- The range without what leaves the text, for a range that was made for another text. -/
def clamp (source : String) (span : Span) : Span :=
  let start := min span.start source.utf8ByteSize
  ⟨start, max (min span.stop source.utf8ByteSize) start⟩

/-- The text that is underlined for a range, unless the range cuts a character. -/
def underlined (source : String) (span : Span) : Option (List Char) :=
  Text.slice? source.toList (clamp source span).start (clamp source span).stop

/-- The annotated report of a diagnostic about `span`. -/
def annotated (source : String) (diagnostic : Diagnostic) (span : Span) : String :=
  let chars := source.toList
  let start := (clamp source span).start
  let marked := underlined source span
  let (before, rest) := (Text.splitBytes? start chars).getD (chars, [])
  let place := Place.between before rest
  let number := Decimal.text place.line
  let margin := repeated (number.length + 2) ' '
  let width := (marked.getD []).length
  let middle := width / 2
  let tail := repeated (width - middle - 1) '─'
  let help := (Diagnostic.explain? diagnostic.id).toList.map ("Help: " ++ ·)
  let note := diagnostic.context.toList.map fun context => "Note: " ++ contextNote context
  let lines :=
    ["[" ++ diagnostic.id ++ "] " ++ heading diagnostic.severity ++ ": " ++ diagnostic.message,
      margin ++ "╭─[ " ++ sourceName ++ ":" ++ number ++ ":" ++ Decimal.text (place.column + 1) ++ " ]",
      margin ++ "│",
      " " ++ number ++ " │ " ++ String.ofList (Text.trimEnd place.text),
      margin ++ "│ " ++ repeated place.column ' ' ++ repeated middle '─' ++ "┬" ++ tail ++ "  ",
      margin ++ "│ " ++ repeated (place.column + middle) ' ' ++ "╰" ++ tail ++ "── " ++ label marked]
    ++ (help ++ note).flatMap (fun text => [margin ++ "│ ", margin ++ "│ " ++ text])
    ++ [repeated (number.length + 2) '─' ++ "╯"]
  String.join (lines.map (· ++ "\n"))

/-- The report of a diagnostic that is about no bytes of the format text. -/
def plain (diagnostic : Diagnostic) : String :=
  let note := diagnostic.context.toList.map fun context => "  = note: " ++ contextNote context
  let help := (Diagnostic.explain? diagnostic.id).toList.map ("  = help: " ++ ·)
  String.join ((diagnostic.summary :: (note ++ help)).map (· ++ "\n"))

def render (source : String) (diagnostic : Diagnostic) : String :=
  match diagnostic.span with
  | some span => annotated source diagnostic span
  | none => plain diagnostic

/-- A count with its noun. -/
def counted (n : Nat) (noun : String) : String :=
  Decimal.text n ++ " " ++ noun ++ (if n = 1 then "" else "s")

/-- The closing line that counts errors and warnings, if there are any. -/
def summary (diagnostics : List Diagnostic) : String :=
  let errors := (diagnostics.filter (·.severity == .error)).length
  let warnings := diagnostics.length - errors
  let parts := (if errors = 0 then [] else [counted errors "error"])
    ++ (if warnings = 0 then [] else [counted warnings "warning"])
  if parts.isEmpty then "" else ", ".intercalate parts ++ "\n"

end BraceTemplate.Report
