import BraceTemplate.Scanner
import BraceTemplate.Sink

/-! The scanner as a computation that changes its parts one after the other, in the order in which they are
assigned. Nothing in it sees to it that a refusal comes before the first change. -/
namespace BraceTemplate.Scanner

/-- A computation that changes a scanner in place. What was changed before a failure stays changed. -/
abbrev Update := EStateM Failure Scanner

namespace Update

def refuse {α : Type} (error : FormatError) : Update α := throw (.format error)

def enter (position : Position) : Update Unit := modify fun scanner => { scanner with position }

def fill (change : Field → Field) : Update Unit :=
  modify fun scanner => { scanner with field := change scanner.field }

/-- Goes on with the specifier at `position`. -/
def proceed (position : Position) : Update Step := do
  enter position
  return .pending

/-- Adds a flag to the set and says whether it is new. -/
def insertFlag (flag : Flag) : Update Bool := do
  let scanner ← get
  if scanner.field.flags.contains flag then return false
  else
    fill fun field => { field with flags := field.flags.insert flag }
    return true

/-- Takes a flag, unless there are as many as there can be or it is there already. -/
def takeFlag (flag : Flag) (offset : Nat) : Update Unit := do
  let scanner ← get
  if Flag.all.length ≤ scanner.field.flags.size then refuse (.invalidFlag flag.char offset)
  else if ← insertFlag flag then return ()
  else refuse (.invalidFlag flag.char offset)

/-- Ends the specifier with a conversion, whose bytes end at `stop`. -/
def close (conversion : Conversion) (stop : Nat) : Update Step := do
  let scanner ← get
  let span ← Write.ofResult (Result.ofFault (Span.between scanner.clauseStart stop))
  enter .outside
  fill fun _ => .empty
  return .specifier ⟨scanner.field, conversion, span⟩

end Update

/-- Takes the character `c` found at byte `offset` in place. -/
def update (offset : Nat) (c : Char) : Update Step := do
  let scanner ← get
  match scanner.position, Symbol.ofChar c with
  | .outside, .percent => do
    modify fun scanner => { scanner with clauseStart := offset }
    Update.fill fun _ => .empty
    Update.proceed .opened
  | .outside, _ => return .literal c
  | .opened, .percent => do
    Update.enter .outside
    return .percent
  | .dot, .digit d => do
    Update.fill fun field => { field with precision := some (UInt32.ofNat d) }
    Update.proceed .precision
  | .dot, _ => Update.refuse (.missingPrecision offset)
  | .opened, .digit 0 | .flags, .digit 0 => do
    Update.takeFlag .zero offset
    Update.proceed .flags
  | .opened, .flag flag | .flags, .flag flag => do
    Update.takeFlag flag offset
    Update.proceed .flags
  | .opened, .digit d | .flags, .digit d => do
    Update.fill fun field => { field with width := some (UInt32.ofNat d) }
    Update.proceed .width
  | .width, .digit d => do
    let width ← Write.ofResult (appendDigit scanner.field.width d offset)
    Update.fill fun field => { field with width := some width }
    Update.proceed .width
  | .precision, .digit d => do
    let precision ← Write.ofResult (appendDigit scanner.field.precision d offset)
    Update.fill fun field => { field with precision := some precision }
    Update.proceed .precision
  | .opened, .dot | .flags, .dot | .width, .dot => Update.proceed .dot
  | .opened, .length modifier | .flags, .length modifier | .width, .length modifier
  | .precision, .length modifier => do
    Update.fill fun field => { field with length := some modifier }
    Update.proceed (.length modifier)
  | .length first, .length second =>
    match first.join? second with
    | some modifier => do
      Update.fill fun field => { field with length := some modifier }
      Update.proceed .complete
    | none => Update.refuse (.invalidCharacter c scanner.position offset)
  | _, .conversion conversion => Update.close conversion (offset + c.utf8Size)
  | _, .noEquivalent => Update.refuse (.noEquivalent c offset)
  | _, .letter => Update.refuse (.unknownConversion c offset)
  | position, _ => Update.refuse (.invalidCharacter c position offset)

end BraceTemplate.Scanner
