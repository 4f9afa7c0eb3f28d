import BraceTemplate.Scanner
import BraceTemplate.Text.Utf8

/-! A format text split into runs of literal text, escaped percent signs and specifiers, each with
the bytes it was read from. -/
namespace BraceTemplate

/-- A piece of a format text. -/
inductive Segment where
  /-- A longest run of characters that stand for themselves. -/
  | literal (text : String) (span : Span)
  /-- An escaped percent sign, of two characters. -/
  | percent (span : Span)
  | specifier (specifier : Specifier)
  deriving DecidableEq, Repr

namespace Segment

/-- The literal run of `source` from byte `start` up to byte `stop`, if there is one. -/
def run (source : List Char) (start : Option Nat) (stop : Nat) : Result (List Segment) :=
  match start with
  | none => .ok []
  | some start =>
    if start < stop then
      match Text.slice? source start stop with
      | some text => do
        let span ← Result.ofFault (Span.between start stop)
        .ok [.literal (String.ofList text) span]
      | none => .error (.fault (.badSlice start stop))
    else .ok []

/-- The escaped percent sign whose second character is at `offset`. -/
def escape : Nat → Result Segment
  | 0 => .error (.fault .negativeOffset)
  | offset + 1 => do
    let span ← Result.ofFault (Span.between offset (offset + 2))
    .ok (.percent span)

/-- The segments that a step at `offset` completes, and the start of the literal run that goes on
after it. -/
def completed (source : List Char) (runStart : Option Nat) (offset : Nat) :
    Step → Result (List Segment × Option Nat)
  | .literal _ => .ok ([], some (runStart.getD offset))
  | .pending => do
    let run ← run source runStart offset
    .ok (run, none)
  | .percent => do
    let run ← run source runStart offset
    let escape ← escape offset
    .ok (run ++ [escape], none)
  | .specifier found => do
    let run ← run source runStart offset
    .ok (run ++ [specifier found], none)

end Segment

/-- Goes on with the characters of `source` from byte `offset` on, where `runStart` is the offset of
the literal run that the text before ends in. -/
def Scanner.segments (source : List Char) (scanner : Scanner) (offset : Nat)
    (runStart : Option Nat) : List Char → Result (List Segment)
  | [] => do
    Result.ofError (scanner.finish offset)
    Segment.run source runStart offset
  | c :: rest => do
    let (step, next) ← scanner.step offset c
    let (done, runStart) ← Segment.completed source runStart offset step
    let later ← next.segments source (offset + c.utf8Size) runStart rest
    .ok (done ++ later)

/-- The segments of `source`. -/
def scan (source : String) : Result (List Segment) :=
  Scanner.start.segments source.toList 0 none source.toList

end BraceTemplate
