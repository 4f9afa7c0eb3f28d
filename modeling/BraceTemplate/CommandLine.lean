import BraceTemplate.CommandLine.Arguments
import BraceTemplate.Json.Exchange
import BraceTemplate.Report

/-! What the command line program prints and how it exits, for every list of arguments. -/
namespace BraceTemplate.CommandLine

/-- The end of a run: exit status and the texts on the two output channels. -/
structure Outcome where
  exit : UInt8
  stdout : String
  stderr : String
  deriving DecidableEq, Repr

/-- Why a format text of the given source format is not converted. -/
def sourceFormatRefusal? : String → Option String
  | "c" | "C" => none
  | name =>
    if name = "zig" || name = "Zig" || name = "ZIG" then
      some ("source format '" ++ name ++ "' is not supported for conversion")
    else some ("unrecognized source format '" ++ name ++ "' (expected 'c')")

/-- A value as a JSON text of its own, with keys in order. -/
def printJson (value : Json) : String := value.sorted.pretty ++ "\n"

/-- The end of a run that could not do what was asked. -/
def refused (mode : OutputMode) (message : String) : Outcome :=
  match mode with
  | .json =>
    let report := Json.object
      [("ok", .bool false), ("error", .string "command_failed"), ("message", .string message)]
    ⟨1, printJson report, ""⟩
  | .pretty => ⟨1, "", "error: " ++ message ++ "\n"⟩

/-- The end of a run that a broken promise cut short. -/
def broken (fault : Fault) : Outcome := ⟨101, "", fault.message ++ "\n"⟩

/-- The end of a run that explains an id. The id is coloured where it is known. -/
def explained (mode : OutputMode) (id : String) : Outcome :=
  match mode with
  | .json =>
    let explanation := (Diagnostic.explain? id).elim Json.null Json.string
    ⟨0, printJson (.object [("id", .string id), ("explanation", explanation)]), ""⟩
  | .pretty =>
    match Diagnostic.explain? id with
    | some text => ⟨0, "\x1b[36m" ++ id ++ "\x1b[0m: " ++ text ++ "\n", ""⟩
    | none => ⟨0, id ++ ": (no explanation available)\n", ""⟩

/-- The end of a run whose conversion has the given envelope. -/
def reported (mode : OutputMode) (source : String) (envelope : Envelope) : Outcome :=
  match mode, envelope with
  | .json, .converted .. => ⟨0, printJson envelope.toJson, ""⟩
  | .json, .failed _ => ⟨1, printJson envelope.toJson, ""⟩
  | .pretty, .converted output notes =>
    ⟨0, output ++ "\n", String.join (notes.map (Report.render source)) ++ Report.summary notes⟩
  | .pretty, .failed diagnostics => ⟨1, "", String.join (diagnostics.map (Report.render source))⟩

/-- The template for `source`, written without limit or through a fixed buffer. -/
def template (source : String) : Option (Option Nat × CapacityPolicy) → Result String
  | none => convert source
  | some (capacity, policy) => FixedBuffer.text <$> convertFixed source capacity policy

/-- The end of a run that converts `source`. -/
def converted (mode : OutputMode) (source : String) (fixed : Option (Option Nat × CapacityPolicy)) :
    Outcome :=
  match template source fixed with
  | .error (.fault fault) => broken fault
  | .error (.format error) =>
    match Envelope.ofError error with
    | .ok envelope => reported mode source envelope
    | .error fault => broken fault
  | .ok output =>
    match lint source with
    | .ok notes => reported mode source (.converted output notes)
    | .error (.format error) =>
      refused mode ("lint failed on a convertible source: " ++ error.message)
    | .error (.fault fault) => broken fault

/-- The line that names the program and its version. -/
def versionLine : String := "fmtconv 0.1.0\n"

/-- The line that shows how the program is called. -/
def usageLine : String :=
  "usage: fmtconv [--output pretty|json] [--fixed [--capacity BYTES] [--sizing exact|bound|legacy]] "
    ++ "(--explain ID | SOURCE_FORMAT FORMAT_STRING)\n"

/-- The end of a run with the given arguments. -/
def run (arguments : List String) : Outcome :=
  match read arguments with
  | .error .version => ⟨0, versionLine, ""⟩
  | .error .help => ⟨0, usageLine, ""⟩
  | .error .usage => ⟨2, "", usageLine⟩
  | .ok (.explain id, mode) => explained mode id
  | .ok (.convert name source fixed, mode) =>
    match sourceFormatRefusal? name with
    | some message => refused mode message
    | none => converted mode source fixed

end BraceTemplate.CommandLine
