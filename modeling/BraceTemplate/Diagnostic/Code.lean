/-! The registered diagnostic codes: id, severity and explanation of each. -/
namespace BraceTemplate

/-- How serious a diagnostic is. -/
inductive Severity where
  | error
  | warning
  | info
  deriving DecidableEq, Repr

namespace Severity

def all : List Severity := [.error, .warning, .info]

def name : Severity → String
  | error => "error"
  | warning => "warn"
  | info => "info"

def ofName? (name : String) : Option Severity := all.find? (·.name == name)

end Severity

/-- A registered kind of diagnostic. -/
inductive Code where
  | invalidFlag
  | invalidCharacter
  | missingPrecision
  | unterminated
  | unknownConversion
  | noEquivalent
  | capacityExceeded
  | numericOverflow
  | lossyApproximation
  deriving DecidableEq, Repr

namespace Code

def all : List Code :=
  [.invalidFlag, .invalidCharacter, .missingPrecision, .unterminated, .unknownConversion,
    .noEquivalent, .capacityExceeded, .numericOverflow, .lossyApproximation]

def id : Code → String
  | invalidFlag => "FMT1001"
  | invalidCharacter => "FMT1002"
  | missingPrecision => "FMT1003"
  | unterminated => "FMT1004"
  | unknownConversion => "FMT1005"
  | noEquivalent => "FMT1006"
  | capacityExceeded => "FMT1007"
  | numericOverflow => "FMT1008"
  | lossyApproximation => "FMT2001"

/-- Every code but the last stands for a failed conversion. -/
def severity : Code → Severity
  | lossyApproximation => .warning
  | _ => .error

/-- What the code means and what to do about it. -/
def explanation : Code → String
  | invalidFlag =>
    "A conversion specifier may carry each of the flags '-', '+', ' ', '#' and '0' at "
      ++ "most once. Remove the repeated flag."
  | invalidCharacter =>
    "Conversion specifiers follow the order "
      ++ "%[flags][width][.precision][length]conversion. A character appeared where the "
      ++ "grammar does not allow it, for example a '%' inside an open specifier or a flag "
      ++ "after the width."
  | missingPrecision =>
    "A '.' in a conversion specifier must be followed by at least one decimal digit, as "
      ++ "in '%.2f'. A bare '.' is rejected instead of being read as precision zero."
  | unterminated =>
    "The input ended before the conversion character of the last specifier. Complete the "
      ++ "specifier (for example '%08x') or escape a literal percent sign as '%%'."
  | unknownConversion =>
    "Supported conversion characters are d, i, u, f, F, e, E, g, G, x, X, o, s, c, p, a "
      ++ "and A."
  | noEquivalent =>
    "The conversion is valid printf but the brace-template grammar cannot express it. "
      ++ "'%n' writes to an argument instead of formatting one and is always rejected."
  | capacityExceeded =>
    "The converted output did not fit into the fixed-capacity buffer. With an estimated "
      ++ "capacity this is an internal sizing bug; with an explicit capacity hint, raise the "
      ++ "hint or use the exact estimator."
  | numericOverflow =>
    "Width and precision must fit in an unsigned 32-bit integer."
  | lossyApproximation =>
    "The specifier converted successfully but part of its meaning is lost: length "
      ++ "modifiers, the '+', ' ' and '#' flags, the unsigned distinction of '%u', "
      ++ "shortest-representation selection of '%g', and hexadecimal floats ('%a') have no "
      ++ "destination representation."

def ofId? (id : String) : Option Code := all.find? (·.id == id)

end Code

end BraceTemplate
