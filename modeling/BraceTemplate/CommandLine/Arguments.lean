import BraceTemplate.Capacity

/-! The command line: options and two positionals in any order. Values are checked as soon as they
are complete, so the first of two mistakes counts. -/
namespace BraceTemplate.CommandLine

/-- How results are shown. -/
inductive OutputMode where
  | pretty
  | json
  deriving DecidableEq, Repr

/-- An option with a value. -/
inductive ValueOption where
  | output
  | explain
  | capacity
  | sizing
  deriving DecidableEq, Repr

/-- What a command line is read for other than a request. -/
inductive Stop where
  | version
  | help
  | usage
  deriving DecidableEq, Repr

/-- What has been read of a command line. -/
structure Arguments where
  output : Option OutputMode
  explain : Option String
  fixed : Bool
  capacity : Option Nat
  sizing : Option CapacityPolicy
  positionals : List String
  deriving DecidableEq, Repr

namespace Arguments

/-- The empty command line. -/
def empty : Arguments := ⟨none, none, false, none, none, []⟩

/-- The output mode with the given name. -/
def outputMode? : String → Option OutputMode
  | "pretty" => some .pretty
  | "json" => some .json
  | _ => none

def sizing? : String → Option CapacityPolicy
  | "exact" => some .exact
  | "bound" => some .expansionBound
  | "legacy" => some .legacy
  | _ => none

/-- The value `some value` for a part that has none yet. -/
def fill {α : Type} (part : Option α) (value : Option α) : Except Stop (Option α) :=
  match part, value with
  | none, some value => .ok (some value)
  | _, _ => .error .usage

/-- Takes the value of an option, which may be given once. -/
def assign (arguments : Arguments) (option : ValueOption) (value : String) :
    Except Stop Arguments := do
  match option with
  | .output => .ok { arguments with output := ← fill arguments.output (outputMode? value) }
  | .explain => .ok { arguments with explain := ← fill arguments.explain (some value) }
  | .capacity =>
    let capacity ← fill arguments.capacity (Decimal.parseBelow? UInt64.size value.toList)
    .ok { arguments with capacity }
  | .sizing => .ok { arguments with sizing := ← fill arguments.sizing (sizing? value) }

/-- Takes a positional. There are two. -/
def addPositional (arguments : Arguments) (value : String) : Except Stop Arguments :=
  if arguments.positionals.length < 2 then
    .ok { arguments with positionals := arguments.positionals ++ [value] }
  else .error .usage

/-- Whether the next positional is the format text, which may begin with a hyphen. -/
def awaitsFormat (arguments : Arguments) : Bool := arguments.positionals.length == 1

end Arguments

/-- What a long name stands for. -/
inductive LongName where
  | value (option : ValueOption)
  | fixed
  | version
  | help

/-- The meaning of a long name. -/
def LongName.ofText? : String → Option LongName
  | "output" => some (.value .output)
  | "explain" => some (.value .explain)
  | "capacity" => some (.value .capacity)
  | "sizing" => some (.value .sizing)
  | "fixed" => some .fixed
  | "version" => some .version
  | "help" => some .help
  | _ => none

/-- The shape of an argument: a long name with or without an attached value, a group of short
names, or anything else. -/
inductive Shape where
  | long (name : Option LongName) (attached : Option String)
  | short (names : List Char)
  | value

/-- The shape of an argument other than two hyphens alone. -/
def Shape.ofText (argument : String) : Shape :=
  match argument.toList with
  | '-' :: '-' :: rest =>
    let name := LongName.ofText? (String.ofList (rest.takeWhile (· != '=')))
    match rest.dropWhile (· != '=') with
    | [] => .long name none
    | _ :: attached => .long name (some (String.ofList attached))
  | '-' :: c :: rest => .short (c :: rest)
  | _ => .value

/-- Whether a character is a short name. -/
def isShortName (c : Char) : Bool := c == 'V' || c == 'h'

/-- Reads the arguments after those that gave `arguments`. `pending` is an option whose value has to
come next; after two hyphens alone all arguments are positionals. -/
def readFrom (arguments : Arguments) (pending : Option ValueOption) (onlyPositionals : Bool) :
    List String → Except Stop Arguments
  | [] => if pending.isSome then .error .usage else .ok arguments
  | argument :: rest => do
    let takeValue : Except Stop Arguments :=
      match pending with
      | some option => arguments.assign option argument
      | none => arguments.addPositional argument
    if onlyPositionals then readFrom (← arguments.addPositional argument) none true rest
    else if argument = "--" then
      if pending.isSome then .error .usage else readFrom arguments none true rest
    else match Shape.ofText argument with
      | .long none _ =>
        if arguments.awaitsFormat then readFrom (← takeValue) none false rest else .error .usage
      | .long (some name) attached =>
        if pending.isSome then .error .usage
        else match name, attached with
          | .value option, some value => readFrom (← arguments.assign option value) none false rest
          | .value option, none => readFrom arguments (some option) false rest
          | .fixed, none =>
            if arguments.fixed then .error .usage
            else readFrom { arguments with fixed := true } none false rest
          | .version, none => .error .version
          | .help, none => .error .help
          | _, some _ => .error .usage
      | .short names =>
        if arguments.awaitsFormat && !names.all isShortName then
          readFrom (← takeValue) none false rest
        else if pending.isSome then .error .usage
        else match names.head? with
          | some 'V' => .error .version
          | some 'h' => .error .help
          | _ => .error .usage
      | .value => readFrom (← takeValue) none false rest

/-- What a command line asks for. -/
inductive Request where
  | explain (id : String)
  | convert (sourceName source : String) (fixed : Option (Option Nat × CapacityPolicy))
  deriving DecidableEq, Repr

/-- The request and output mode of complete arguments. An explanation takes no positionals, a
conversion takes two, and a capacity or sizing makes sense for a fixed buffer only. -/
def Arguments.request (arguments : Arguments) : Except Stop (Request × OutputMode) :=
  let sized := arguments.capacity.isSome || arguments.sizing.isSome
  let mode := arguments.output.getD .pretty
  if sized && !arguments.fixed then .error .usage
  else match arguments.explain, arguments.positionals with
    | some id, [] => .ok (.explain id, mode)
    | none, [name, source] =>
      let fixed := if arguments.fixed then
        some (arguments.capacity, arguments.sizing.getD .standard) else none
      .ok (.convert name source fixed, mode)
    | _, _ => .error .usage

/-- The request of a command line. -/
def read (arguments : List String) : Except Stop (Request × OutputMode) := do
  (← readFrom .empty none false arguments).request

end BraceTemplate.CommandLine
