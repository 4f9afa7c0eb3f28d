import BraceTemplate.Proofs.CallerMemory
import BraceTemplate.Proofs.Envelope
import BraceTemplate.Proofs.JsonValue

/-! The program and the library for C callers. However the program has been told to write the template, it prints
the envelope that a C caller gets, unless the buffer that it has been given is too small. -/
namespace BraceTemplate

namespace CInterface

/-- No text of an envelope is cut short by a zero byte. -/
private theorem handOver?_compact {value : Json} (proper : value.Proper) :
    handOver? value.compact = some value.compact := by
  rw [handOver?, if_neg]
  simpa using proper.zero_notMem_compact

private theorem convert_terminated {source : String} (free : '\x00' ∉ source.toList) (behind : ByteArray)
    {envelope : Envelope} (built : Envelope.build source = .ok envelope) :
    CInterface.convert (some (terminated source behind)) = some envelope.toJson.compact := by
  rw [CInterface.convert, readText?_terminated free]
  simp only [Option.bind_eq_bind, Option.bind_some, built]
  exact handOver?_compact envelope.proper_toJson

end CInterface

namespace CommandLine

/-- The run prints the envelope as one JSON value, and exits with zero exactly if there is a template. -/
structure Prints (envelope : Envelope) (outcome : Outcome) : Prop where
  value : ∃ value, envelope.toJson.Same value ∧ outcome.stdout = value.pretty ++ "\n"
  stderr : outcome.stderr = ""
  exit : outcome.exit = 0 ↔ ∃ output notes, envelope = .converted output notes

private theorem prints_reported (source : String) (envelope : Envelope) :
    Prints envelope (reported .json source envelope) := by
  have same := envelope.proper_toJson.same_sorted
  cases envelope with
  | converted output notes => exact ⟨⟨_, same, rfl⟩, rfl, fun _ => ⟨output, notes, rfl⟩, fun _ => rfl⟩
  | failed diagnostics => exact ⟨⟨_, same, rfl⟩, rfl, nofun, nofun⟩

variable {source out : String} {fixed other : Option (Option Nat × CapacityPolicy)}

/-- A run depends on nothing but the text and the result of its conversion. -/
private theorem converted_congr (h : template source fixed = template source other) (mode : OutputMode) :
    converted mode source fixed = converted mode source other := by
  rw [converted, converted, h]

private theorem converted_of_ok {notes : List Diagnostic} (h : template source fixed = .ok out)
    (noted : lint source = .ok notes) (mode : OutputMode) :
    converted mode source fixed = reported mode source (.converted out notes) := by
  rw [converted, h, noted]

/-- Through whichever buffer a template has been written, it is that of the growing conversion. -/
private theorem convert_of_template (h : template source fixed = .ok out) : convert source = .ok out := by
  have sized {capacity : Nat} {text : String} (ok : (convertSized source capacity).map FixedBuffer.text = .ok text) :
      convert source = .ok text := by
    rcases Nat.lt_or_ge capacity (writtenBytes source) with full | room
    · obtain ⟨required, refused⟩ := convertSized_of_lt full
      rw [refused] at ok
      cases ok
    · rw [← (convertSized_of_le room).1]
      exact ok
  rcases fixed with - | ⟨- | hint, policy⟩
  · exact h
  · have text : (convertFixed source none policy).map FixedBuffer.text = .ok out := h
    cases chosen : estimateCapacity source policy with
    | ok capacity =>
      rw [convertFixed_policy chosen] at text
      exact sized text
    | error failure =>
      rw [(convertFixed_of_estimate_error chosen).1] at text
      cases text
  · exact sized h

/-- Without a capacity of the caller's the buffer makes no difference. -/
private theorem template_none (short : source.utf8ByteSize < 2 ^ 63) (policy : CapacityPolicy) :
    template source (some (none, policy)) = template source none :=
  (convertFixed_none short policy).1

private theorem template_of_le (short : source.utf8ByteSize < 2 ^ 63) {capacity : Nat}
    (room : writtenBytes source ≤ capacity) (policy : CapacityPolicy) :
    template source (some (some capacity, policy)) = template source none :=
  convertFixed_some_of_le short room policy

private theorem template_of_lt (short : source.utf8ByteSize < 2 ^ 63) {capacity : Nat}
    (full : capacity < writtenBytes source) (policy : CapacityPolicy) :
    ∃ required, template source (some (some capacity, policy)) =
      .error (.format (.capacityExceeded capacity required)) := by
  obtain ⟨required, refused⟩ := convertFixed_some_of_lt short full policy
  refine ⟨required, ?_⟩
  rw [template, refused]
  rfl

/-- A run with a buffer that is too small prints that. -/
private theorem prints_of_lt (short : source.utf8ByteSize < 2 ^ 63) {capacity : Nat}
    (full : capacity < writtenBytes source) (policy : CapacityPolicy) :
    ∃ required diagnostic, (FormatError.capacityExceeded capacity required).diagnostic = .ok diagnostic ∧
      diagnostic.id = "FMT1007" ∧
      Prints (.failed [diagnostic]) (converted .json source (some (some capacity, policy))) := by
  obtain ⟨required, refused⟩ := template_of_lt short full policy
  have located : (FormatError.capacityExceeded capacity required).span = .ok none := rfl
  have made := FormatError.diagnostic_of_span located
  refine ⟨required, _, made, rfl, ?_⟩
  rw [converted_of_error refused made]
  exact prints_reported source _

/-- What the program prints for a text in every mode. -/
structure Reports (source : String) (envelope : Envelope) : Prop where
  growing : Prints envelope (converted .json source none)
  sized : ∀ policy, converted .json source (some (none, policy)) = converted .json source none
  roomy : ∀ capacity policy, writtenBytes source ≤ capacity →
    converted .json source (some (some capacity, policy)) = converted .json source none
  full : ∀ capacity policy, capacity < writtenBytes source →
    ∃ required diagnostic, (FormatError.capacityExceeded capacity required).diagnostic = .ok diagnostic ∧
      diagnostic.id = "FMT1007" ∧
      Prints (.failed [diagnostic]) (converted .json source (some (some capacity, policy)))
  noted : ∀ fixed out, template source fixed = .ok out → ∃ notes, lint source = .ok notes

/-- The mode of writing makes no difference but where the buffer is too small. -/
theorem Prints.reports {envelope : Envelope} (h : Prints envelope (converted .json source none))
    (short : source.utf8ByteSize < 2 ^ 63) : Reports source envelope where
  growing := h
  sized policy := converted_congr (template_none short policy) .json
  roomy _ policy room := converted_congr (template_of_le short room policy) .json
  full _ policy full := prints_of_lt short full policy
  noted _ _ ok := exists_lint_of_convert (convert_of_template ok)

end CommandLine

/-- A text without the zero character, of a size that a caller can have, has one envelope: its template and
the notes on it, or the one diagnostic of its error. A C caller gets that envelope, and the program prints it,
in whichever way it sizes its buffer. A capacity of the caller's that the written bytes exceed is reported
instead. The notes on a text never fail where there is a template. -/
theorem interfaces_agree (source : String) (free : '\x00' ∉ source.toList) (short : source.utf8ByteSize < 2 ^ 63) :
    ∃ envelope, Envelope.build source = .ok envelope ∧
      ((∃ out notes, convert source = .ok out ∧ lint source = .ok notes ∧ envelope = .converted out notes ∧
          envelope.toJson = .object [("ok", .bool true), ("output", .string out),
            ("notes", .array (notes.map Diagnostic.toJson))]) ∨
        ∃ error diagnostic, convert source = .error (.format error) ∧ error.diagnostic = .ok diagnostic ∧
          envelope = .failed [diagnostic] ∧
          envelope.toJson = .object [("ok", .bool false), ("diagnostics", .array [diagnostic.toJson])]) ∧
      (∀ behind, CInterface.convert (some (CInterface.terminated source behind)) = some envelope.toJson.compact) ∧
      CommandLine.Reports source envelope := by
  cases conversion : convert source with
  | ok out =>
    obtain ⟨notes, noted⟩ := exists_lint_of_convert conversion
    have built := Envelope.build_of_ok conversion noted
    have grown : CommandLine.template source none = .ok out := conversion
    have printed := CommandLine.prints_reported source (.converted out notes)
    rw [← CommandLine.converted_of_ok grown noted] at printed
    exact ⟨_, built, .inl ⟨out, notes, rfl, noted, rfl, rfl⟩,
      fun behind => CInterface.convert_terminated free behind built, printed.reports short⟩
  | error failure =>
    obtain ⟨error, diagnostic, rfl, made⟩ := exists_diagnostic_of_convert conversion
    have built := Envelope.build_of_error conversion made
    have grown : CommandLine.template source none = .error (.format error) := conversion
    have printed := CommandLine.prints_reported source (.failed [diagnostic])
    rw [← CommandLine.converted_of_error grown made] at printed
    exact ⟨_, built, .inr ⟨error, diagnostic, rfl, made, rfl, rfl⟩,
      fun behind => CInterface.convert_terminated free behind built, printed.reports short⟩

/-- Six bytes are written before the fault. With fewer the buffer is at fault, and with six the letter is. -/
theorem interfaces_agree_of_unknown_letter :
    ∃ envelope, Envelope.build "%05d%q" = .ok envelope ∧
      CInterface.convert (some (CInterface.terminated "%05d%q" .empty)) = some envelope.toJson.compact ∧
      CommandLine.converted .json "%05d%q" (some (none, .legacy)) = CommandLine.converted .json "%05d%q" none ∧
      CommandLine.converted .json "%05d%q" (some (some 7, .exact)) = CommandLine.converted .json "%05d%q" none ∧
      ∃ required diagnostic, (FormatError.capacityExceeded 6 required).diagnostic = .ok diagnostic ∧
        diagnostic.id = "FMT1007" ∧
        CommandLine.Prints (.failed [diagnostic]) (CommandLine.converted .json "%05d%q" (some (some 6, .exact))) := by
  obtain ⟨envelope, built, -, called, reports⟩ := interfaces_agree "%05d%q" (by decide) (by decide)
  exact ⟨envelope, built, called .empty, reports.sized .legacy, reports.roomy 7 .exact (by decide),
    reports.full 6 .exact (by decide)⟩

end BraceTemplate
