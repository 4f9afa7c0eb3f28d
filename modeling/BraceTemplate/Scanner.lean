import BraceTemplate.FormatError
import BraceTemplate.Scanner.Symbol

/-! The scanner of format texts. It takes one character at a time and says what the character
means; a character that it refuses leaves it as it was. -/
namespace BraceTemplate

/-- A complete specifier and the bytes it was read from. -/
structure Specifier where
  field : Field
  conversion : Conversion
  span : Span
  deriving DecidableEq, Repr

/-- The meaning of one character. -/
inductive Step where
  /-- The character stands for itself. -/
  | literal (c : Char)
  /-- The character belongs to a specifier that goes on. -/
  | pending
  /-- The character ends an escaped percent sign. -/
  | percent
  /-- The character ends a specifier. -/
  | specifier (specifier : Specifier)
  deriving DecidableEq, Repr

/-- What has been read of the current specifier, and the offset of its `%`. -/
structure Scanner where
  position : Position
  field : Field
  clauseStart : Nat
  deriving DecidableEq, Repr

namespace Scanner

/-- The scanner before the first character. -/
def start : Scanner := ⟨.outside, .empty, 0⟩

instance : Inhabited Scanner := ⟨start⟩

/-- A character taken as part of a specifier that goes on at `position`. -/
def proceed (scanner : Scanner) (position : Position) (field : Field) :
    Result (Step × Scanner) :=
  .ok (.pending, { scanner with position, field })

/-- Takes a flag, each at most once. -/
def takeFlag (scanner : Scanner) (flag : Flag) (offset : Nat) : Result (Step × Scanner) :=
  match scanner.field.flags.insertNew? flag with
  | some flags => scanner.proceed .flags { scanner.field with flags }
  | none => .error (.format (.invalidFlag flag.char offset))

/-- Appends a digit to a number that the field holds, or starts the number. -/
def appendDigit (number : Option UInt32) (d : Fin 10) (offset : Nat) : Result UInt32 :=
  match Decimal.push? (number.getD 0) d with
  | some value => .ok value
  | none => .error (.format (.numericOverflow offset))

/-- Ends the specifier with a conversion, whose bytes end at `stop`. -/
def close (scanner : Scanner) (conversion : Conversion) (stop : Nat) : Result (Step × Scanner) := do
  let span ← Result.ofFault (Span.between scanner.clauseStart stop)
  .ok (.specifier ⟨scanner.field, conversion, span⟩, { scanner with position := .outside, field := .empty })

/-- Takes the character `c` found at byte `offset`. Behind a dot a missing digit is the fault,
whatever stands there instead; elsewhere the class of the character decides. -/
def step (scanner : Scanner) (offset : Nat) (c : Char) : Result (Step × Scanner) :=
  let field := scanner.field
  match scanner.position, Symbol.ofChar c with
  | .outside, .percent => .ok (.pending, ⟨.opened, .empty, offset⟩)
  | .outside, _ => .ok (.literal c, scanner)
  | .opened, .percent => .ok (.percent, { scanner with position := .outside })
  | .dot, .digit d => scanner.proceed .precision { field with precision := some (UInt32.ofNat d) }
  | .dot, _ => .error (.format (.missingPrecision offset))
  | .opened, .digit 0 | .flags, .digit 0 => scanner.takeFlag .zero offset
  | .opened, .flag flag | .flags, .flag flag => scanner.takeFlag flag offset
  | .opened, .digit d | .flags, .digit d =>
    scanner.proceed .width { field with width := some (UInt32.ofNat d) }
  | .width, .digit d => do
    scanner.proceed .width { field with width := some (← appendDigit field.width d offset) }
  | .precision, .digit d => do
    scanner.proceed .precision { field with precision := some (← appendDigit field.precision d offset) }
  | .opened, .dot | .flags, .dot | .width, .dot => scanner.proceed .dot field
  | .opened, .length modifier | .flags, .length modifier | .width, .length modifier
  | .precision, .length modifier =>
    scanner.proceed (.length modifier) { field with length := some modifier }
  | .length first, .length second =>
    match first.join? second with
    | some modifier => scanner.proceed .complete { field with length := some modifier }
    | none => .error (.format (.invalidCharacter c scanner.position offset))
  | _, .conversion conversion => scanner.close conversion (offset + c.utf8Size)
  | _, .noEquivalent => .error (.format (.noEquivalent c offset))
  | _, .letter => .error (.format (.unknownConversion c offset))
  | position, _ => .error (.format (.invalidCharacter c position offset))

/-- Offers the character `c` at byte `offset`. A scanner that refuses it stays as it is. -/
def offer (scanner : Scanner) (offset : Nat) (c : Char) : Result Step × Scanner :=
  match scanner.step offset c with
  | .ok (step, next) => (.ok step, next)
  | .error failure => (.error failure, scanner)

/-- The answers to characters that are offered one after the other, each with the scanner as it is
then. -/
def trace (scanner : Scanner) : List (Nat × Char) → List (Result Step × Scanner)
  | [] => []
  | (offset, c) :: rest =>
    let (answer, next) := scanner.offer offset c
    (answer, next) :: next.trace rest

/-- Ends the text at byte `stop`, which must not be inside a specifier. -/
def finish (scanner : Scanner) (stop : Nat) : Except FormatError Unit :=
  match scanner.position with
  | .outside => .ok ()
  | _ => .error (.unterminated scanner.clauseStart stop)

end Scanner

end BraceTemplate
