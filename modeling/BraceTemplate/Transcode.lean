import BraceTemplate.Scanner
import BraceTemplate.Sink

/-! Rewriting a format text as a brace template, character by character into a destination. A specifier
becomes a placeholder: a tag and, behind a colon, alignment, width and precision. Flags other than `-`
and `0`, and length modifiers, have no spelling there. When the text is refused, the destination keeps
what was written before. -/
namespace BraceTemplate

/-- How a placeholder aligns its value. -/
inductive Alignment where
  | left
  /-- To the right, with zeros in front. -/
  | zeroFill
  deriving DecidableEq, Repr

def Alignment.text : Alignment → String
  | left => "<"
  | zeroFill => "0>"

/-- The alignment that flags ask for. Left alignment leaves no place for zeros. -/
def FlagSet.alignment? (flags : FlagSet) : Option Alignment :=
  if flags.contains .minus then some .left
  else if flags.contains .zero then some .zeroFill
  else none

namespace Placeholder

variable {σ : Type} [Sink σ]

/-- Writes what stands between the tag and the closing brace. -/
def writeLayout (alignment : Option Alignment) (width precision : Option UInt32) : Write σ Unit := do
  Sink.writeChar ':'
  if let some alignment := alignment then Sink.writeText alignment.text
  if let some width := width then Sink.writeDecimal width
  if let some precision := precision then
    Sink.writeChar '.'
    Sink.writeDecimal precision

/-- Writes the placeholder for `field` with the tag of `destination`. -/
def write (destination : Destination) (field : Field) : Write σ Unit := do
  Sink.writeChar '\x7b'
  Sink.writeText destination.tag
  match field.flags.alignment?, field.width, field.precision with
  | none, none, none => pure ()
  | alignment, width, precision => writeLayout alignment width precision
  Sink.writeChar '\x7d'

end Placeholder

def Specifier.write {σ : Type} [Sink σ] (specifier : Specifier) : Write σ Unit :=
  Placeholder.write specifier.conversion.destination specifier.field

variable {σ : Type} [Sink σ]

/-- Writes what a step puts into the template. -/
def Step.write : Step → Write σ Unit
  | literal c => Sink.writeChar c
  | pending => pure ()
  | percent => Sink.writeChar '%'
  | specifier found => found.write

/-- Goes on with the characters from byte `offset` on. -/
def Scanner.transcode (scanner : Scanner) (offset : Nat) : List Char → Write σ Unit
  | [] => Write.ofResult (Result.ofError (scanner.finish offset))
  | c :: rest => do
    let (step, next) ← Write.ofResult (scanner.step offset c)
    step.write
    next.transcode (offset + c.utf8Size) rest

/-- Writes the template for `source`. -/
def transcode (source : String) : Write σ Unit := Scanner.start.transcode 0 source.toList

/-- The template for `source`, as a text. -/
def convert (source : String) : Result String := do
  let (_, sink) ← (transcode source).run TextSink.empty
  .ok sink.text

/-- Writes the template for `source` into storage. The buffer is there also after a failure. -/
def convertInto (source : String) (storage : ByteArray) : Result Unit × FixedBuffer :=
  (transcode source).attempt (FixedBuffer.over storage)

end BraceTemplate
