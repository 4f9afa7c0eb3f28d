import BraceTemplate.Diagnostic
import BraceTemplate.Scanner.Symbol
import BraceTemplate.Text.Quoted

/-! The ways in which a conversion can fail, their wording and their diagnostics. -/
namespace BraceTemplate

/-- Why a format text is not converted. Offsets and sizes are in bytes. -/
inductive FormatError where
  /-- A flag for the second time in one specifier. -/
  | invalidFlag (flag : Char) (offset : Nat)
  /-- A character that may not stand at this place of a specifier. -/
  | invalidCharacter (found : Char) (position : Position) (offset : Nat)
  /-- No digit behind the dot. The offset is that of the character after it. -/
  | missingPrecision (offset : Nat)
  /-- The text ended inside a specifier. -/
  | unterminated (start stop : Nat)
  /-- A letter that is no conversion. -/
  | unknownConversion (found : Char) (offset : Nat)
  /-- A conversion that brace templates do not have. -/
  | noEquivalent (conversion : Char) (offset : Nat)
  /-- The output does not fit. `required` bytes would have been needed for the refused write. -/
  | capacityExceeded (capacity required : Nat)
  /-- A digit that makes the width or precision too large. -/
  | numericOverflow (offset : Nat)
  deriving DecidableEq, Repr

namespace FormatError

def message : FormatError → String
  | invalidFlag flag offset =>
    "invalid flag '" ++ flag.toString ++ "' at offset " ++ Decimal.text offset
      ++ ": flags may appear at most once"
  | invalidCharacter found position offset =>
    "unexpected " ++ Text.quoteChar found ++ " at offset " ++ Decimal.text offset
      ++ " (" ++ position.description ++ ")"
  | missingPrecision offset => "missing precision digits after '.' at offset " ++ Decimal.text offset
  | unterminated start _ =>
    "unterminated conversion specifier starting at offset " ++ Decimal.text start
  | unknownConversion found offset =>
    "unknown conversion character " ++ Text.quoteChar found ++ " at offset " ++ Decimal.text offset
  | noEquivalent conversion offset =>
    "conversion '%" ++ conversion.toString ++ "' at offset " ++ Decimal.text offset
      ++ " has no destination equivalent"
  | capacityExceeded capacity required =>
    "output exceeds fixed capacity (" ++ Decimal.text required ++ " bytes needed, capacity "
      ++ Decimal.text capacity ++ ")"
  | numericOverflow offset => "width or precision too large at offset " ++ Decimal.text offset

/-- The code under which the error is reported. -/
def code : FormatError → Code
  | invalidFlag .. => .invalidFlag
  | invalidCharacter .. => .invalidCharacter
  | missingPrecision .. => .missingPrecision
  | unterminated .. => .unterminated
  | unknownConversion .. => .unknownConversion
  | noEquivalent .. => .noEquivalent
  | capacityExceeded .. => .capacityExceeded
  | numericOverflow .. => .numericOverflow

/-- Whether the format text is at fault, and not the room for the output. -/
def isInputError : FormatError → Bool
  | capacityExceeded .. => false
  | _ => true

/-- The bytes that the error is about: the offending character, the dot without digits, or all
of an unfinished specifier. -/
def span : FormatError → Except Fault (Option Span)
  | invalidFlag c offset | invalidCharacter c _ offset | unknownConversion c offset
  | noEquivalent c offset => some <$> Span.between offset (offset + c.utf8Size)
  | missingPrecision offset => some <$> Span.between (offset - 1) offset
  | unterminated start stop => some <$> Span.between start stop
  | capacityExceeded .. => .ok none
  | numericOverflow offset => some <$> Span.between offset (offset + 1)

/-- The details of the error that are not in its range. -/
def context : FormatError → Option Context
  | invalidFlag flag _ => some (.ofList [("flag", flag.toString)])
  | invalidCharacter found position _ =>
    some (.ofList [("found", found.toString), ("state", position.description)])
  | unknownConversion found _ => some (.ofList [("found", found.toString)])
  | noEquivalent conversion _ => some (.ofList [("conversion", conversion.toString)])
  | capacityExceeded capacity required =>
    some (.ofList [("capacity", Decimal.text capacity), ("required", Decimal.text required)])
  | missingPrecision _ | unterminated .. | numericOverflow _ => none

/-- The error as a diagnostic. -/
def diagnostic (error : FormatError) : Except Fault Diagnostic := do
  let found := Diagnostic.ofCode error.code error.message (← error.span)
  .ok (error.context.elim found found.withContext)

end FormatError

/-- Why an operation gave no result: an error to report, or a broken promise. -/
inductive Failure where
  | format (error : FormatError)
  | fault (fault : Fault)
  deriving DecidableEq, Repr

/-- A result, or the error or broken promise in its place. -/
abbrev Result := Except Failure

/-- A computation that can only break a promise. -/
def Result.ofFault {α : Type} : Except Fault α → Result α
  | .ok a => .ok a
  | .error fault => .error (.fault fault)

/-- A computation that can only fail with an error. -/
def Result.ofError {α : Type} : Except FormatError α → Result α
  | .ok a => .ok a
  | .error error => .error (.format error)

end BraceTemplate
