import BraceTemplate.Capacity
import BraceTemplate.Json
import BraceTemplate.Lint

/-! The forms in which the library's values are exchanged as JSON. Parts that say nothing are
left out when written; a structure may also be read from the list of its parts. The outcome of a
conversion is exchanged as one value, with all that is to be said about it. -/
namespace BraceTemplate

namespace Json

def asString? : Json → Option String
  | string value => some value
  | _ => none

/-- The number of a value below `limit`. -/
def asNatBelow? (limit : Nat) : Json → Option Nat
  | natural value => if value < limit then some value else none
  | _ => none

def asOffset? : Json → Option Nat := asNatBelow? UInt64.size

def asWidth? (value : Json) : Option UInt32 := (value.asNatBelow? UInt32.size).map UInt32.ofNat

/-- The name of a choice: a string, or the key of an object whose one member is null. -/
def asChoice? : Json → Option String
  | string name => some name
  | object [(name, null)] => some name
  | _ => none

def asMembers? : Json → Option (List (String × Json))
  | object members => some members
  | _ => none

/-- A part that may be absent or null. -/
def asOptional? {α : Type} (read : Json → Option α) : Option Json → Option (Option α)
  | none | some null => some none
  | some value => (read value).map some

/-- What stands under `key`. A key that is there more than once is refused. -/
def member? (members : List (String × Json)) (key : String) : Option (Option Json) :=
  match members.filter (·.1 == key) with
  | [] => some none
  | [(_, value)] => some (some value)
  | _ => none

/-- A member that is left out where there is nothing to write. -/
def optionalMember {α : Type} (key : String) (write : α → Json) (part : Option α) :
    List (String × Json) :=
  part.toList.map fun value => (key, write value)

end Json

def Flag.ofJson? (value : Json) : Option Flag := do
  let name ← value.asChoice?
  Flag.all.find? (·.name == name)

namespace FlagSet

/-- The flag characters in canonical order. -/
def toJson (flags : FlagSet) : Json := .string flags.text

/-- Reads flag characters, in any order. -/
def ofJson? (value : Json) : Option FlagSet := value.asString?.map ofText

end FlagSet

namespace LengthModifier

/-- The spelling of the modifier. -/
def toJson (modifier : LengthModifier) : Json := .string modifier.text

def ofJson? (value : Json) : Option LengthModifier := value.asChoice?.bind ofText?

end LengthModifier

def Destination.ofJson? (value : Json) : Option Destination := value.asChoice?.bind ofName?

def CapacityPolicy.ofJson? (value : Json) : Option CapacityPolicy := value.asChoice?.bind ofName?

namespace Conversion

def toJson (conversion : Conversion) : Json := .string conversion.char.toString

/-- Reads a conversion from a text of one character. -/
def ofJson? (value : Json) : Option Conversion := do
  match (← value.asString?).toList with
  | [c] => ofChar? c
  | _ => none

end Conversion

namespace Field

def toJson (field : Field) : Json :=
  .object
    (Json.optionalMember "flags" FlagSet.toJson
        (if field.flags = .empty then none else some field.flags)
      ++ Json.optionalMember "width" (fun n => .natural n.toNat) field.width
      ++ Json.optionalMember "precision" (fun n => .natural n.toNat) field.precision
      ++ Json.optionalMember "length" LengthModifier.toJson field.length)

def ofParts? (flags width precision length : Option Json) : Option Field := do
  let flags ← match flags with
    | none => some .empty
    | some value => FlagSet.ofJson? value
  let width ← Json.asOptional? Json.asWidth? width
  let precision ← Json.asOptional? Json.asWidth? precision
  let length ← Json.asOptional? LengthModifier.ofJson? length
  some ⟨flags, width, precision, length⟩

/-- Reads a field from an object, whose other members do not matter, or from a list of up to four
parts. -/
def ofJson? : Json → Option Field
  | .object members => do
    ofParts? (← Json.member? members "flags") (← Json.member? members "width")
      (← Json.member? members "precision") (← Json.member? members "length")
  | .array items =>
    if items.length ≤ 4 then ofParts? items[0]? items[1]? items[2]? items[3]? else none
  | _ => none

end Field

namespace Span

/-- The two ends of a range. -/
def toJson (span : Span) : Json :=
  .object [("start", .natural span.start), ("end", .natural span.stop)]

/-- Reads a range, inverted or not, from an object or from a list of its ends. -/
def ofJson? : Json → Option Span
  | .object members => do
    let start ← (← Json.member? members "start").bind Json.asOffset?
    let stop ← (← Json.member? members "end").bind Json.asOffset?
    some ⟨start, stop⟩
  | .array [start, stop] => do some ⟨← start.asOffset?, ← stop.asOffset?⟩
  | _ => none

end Span

namespace Severity

def toJson (severity : Severity) : Json := .string severity.name

def ofJson? (value : Json) : Option Severity := value.asChoice?.bind ofName?

end Severity

namespace Context

/-- The entries in order of their keys. -/
def toJson (context : Context) : Json :=
  .object (context.entries.map fun (key, value) => (key, .string value))

/-- Reads entries in any order. All of them have to be texts. -/
def ofJson? (value : Json) : Option Context := do
  let entries ← (← value.asMembers?).mapM fun (key, value) => value.asString?.map (key, ·)
  some (ofList entries)

end Context

namespace Diagnostic

def toJson (diagnostic : Diagnostic) : Json :=
  .object
    ([("id", .string diagnostic.id), ("severity", diagnostic.severity.toJson),
        ("message", .string diagnostic.message)]
      ++ Json.optionalMember "span" Span.toJson diagnostic.span
      ++ Json.optionalMember "context" Context.toJson diagnostic.context)

def ofParts? (id severity message : Json) (span context : Option Json) : Option Diagnostic := do
  let id ← id.asString?
  let severity ← Severity.ofJson? severity
  let message ← message.asString?
  let span ← Json.asOptional? Span.ofJson? span
  let context ← Json.asOptional? Context.ofJson? context
  some ⟨id, severity, message, span, context⟩

/-- Reads a diagnostic from an object, whose other members do not matter, or from the list of all
five parts. -/
def ofJson? : Json → Option Diagnostic
  | .object members => do
    ofParts? (← ← Json.member? members "id") (← ← Json.member? members "severity")
      (← ← Json.member? members "message") (← Json.member? members "span")
      (← Json.member? members "context")
  | .array [id, severity, message, span, context] => ofParts? id severity message span context
  | _ => none

end Diagnostic

/-- The members of a segment, beginning with its kind. -/
def Segment.toJson : Segment → Json
  | literal text span =>
    .object [("kind", .string "literal"), ("text", .string text), ("span", span.toJson)]
  | percent span => .object [("kind", .string "percent"), ("span", span.toJson)]
  | specifier found =>
    .object [("kind", .string "specifier"), ("field", found.field.toJson),
      ("conversion", found.conversion.toJson), ("span", found.span.toJson)]

/-- The outcome of a conversion as one value: a template with the notes on it, or the diagnostics of the
failure. -/
inductive Envelope where
  | converted (output : String) (notes : List Diagnostic)
  | failed (diagnostics : List Diagnostic)
  deriving DecidableEq

namespace Envelope

/-- The envelope of a failed conversion. -/
def ofError (error : FormatError) : Except Fault Envelope := do
  .ok (.failed [← error.diagnostic])

/-- The envelope of a conversion of `source`. -/
def build (source : String) : Except Fault Envelope :=
  let outcome : Result (String × List Diagnostic) := do
    let output ← convert source
    let notes ← lint source
    .ok (output, notes)
  match outcome with
  | .ok (output, notes) => .ok (.converted output notes)
  | .error (.format error) => ofError error
  | .error (.fault fault) => .error fault

def toJson : Envelope → Json
  | converted output notes =>
    .object [("ok", .bool true), ("output", .string output),
      ("notes", .array (notes.map Diagnostic.toJson))]
  | failed diagnostics =>
    .object [("ok", .bool false), ("diagnostics", .array (diagnostics.map Diagnostic.toJson))]

end Envelope

end BraceTemplate
