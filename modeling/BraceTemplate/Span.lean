import BraceTemplate.Decimal

/-! Byte ranges of a format text, and the promises that a computation on offsets can break. -/
namespace BraceTemplate

/-- A promise between parts of the library that was not kept. -/
inductive Fault where
  /-- A range was asked for whose end is below its start. -/
  | invertedSpan (start stop : Nat)
  /-- A piece of text was asked for that leaves the text or cuts a character. -/
  | badSlice (start stop : Nat)
  /-- An offset before the first byte was asked for. -/
  | negativeOffset
  deriving DecidableEq, Repr

def Fault.message : Fault → String
  | invertedSpan start stop =>
    "Span end (" ++ Decimal.text stop ++ ") < start (" ++ Decimal.text start ++ ")"
  | badSlice start stop =>
    "no text from byte " ++ Decimal.text start ++ " to byte " ++ Decimal.text stop
  | negativeOffset => "offset before the first byte"

/-- The bytes from `start` up to `stop`. A range that was read from elsewhere may be inverted. -/
structure Span where
  start : Nat
  stop : Nat
  deriving DecidableEq, Repr

namespace Span

/-- The range from `start` to `stop`, which must not be inverted. -/
def between (start stop : Nat) : Except Fault Span :=
  if stop < start then .error (.invertedSpan start stop) else .ok ⟨start, stop⟩

def empty (offset : Nat) : Span := ⟨offset, offset⟩

def size (span : Span) : Nat := span.stop - span.start

def isEmpty (span : Span) : Bool := span.start == span.stop

end Span

end BraceTemplate
