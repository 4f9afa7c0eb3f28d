/-! The conversions of a format text: their characters, the rendering that each becomes and what
that rendering loses. A brace template can ask for eight renderings, each with a one-character tag. -/
namespace BraceTemplate

/-- A rendering of the brace template, written as the tag of a placeholder. -/
inductive Destination where
  | decimal
  | hex
  | hexUpper
  | octal
  | scientific
  | string
  | character
  | address
  deriving DecidableEq, Repr

namespace Destination

def all : List Destination :=
  [.decimal, .hex, .hexUpper, .octal, .scientific, .string, .character, .address]

/-- The tag inside the braces. -/
def tag : Destination → String
  | decimal => "d"
  | hex => "x"
  | hexUpper => "X"
  | octal => "o"
  | scientific => "e"
  | string => "s"
  | character => "c"
  | address => "*"

def name : Destination → String
  | decimal => "decimal"
  | hex => "hex"
  | hexUpper => "hex-upper"
  | octal => "octal"
  | scientific => "scientific"
  | string => "string"
  | character => "char"
  | address => "address"

def ofName? (name : String) : Option Destination := all.find? (·.name == name)

end Destination

/-- A conversion that has a rendering in brace templates. -/
inductive Conversion where
  | signedDecimal
  | integer
  | unsigned
  | float
  | floatUpper
  | exponent
  | exponentUpper
  | general
  | generalUpper
  | hex
  | hexUpper
  | octal
  | string
  | character
  | pointer
  | hexFloat
  | hexFloatUpper
  deriving DecidableEq, Repr

/-- What is known about a character as a conversion. -/
inductive Support where
  | supported (conversion : Conversion)
  | noEquivalent
  | unknown
  deriving DecidableEq, Repr

namespace Conversion

def all : List Conversion :=
  [.signedDecimal, .integer, .unsigned, .float, .floatUpper, .exponent, .exponentUpper, .general,
    .generalUpper, .hex, .hexUpper, .octal, .string, .character, .pointer, .hexFloat, .hexFloatUpper]

def char : Conversion → Char
  | signedDecimal => 'd'
  | integer => 'i'
  | unsigned => 'u'
  | float => 'f'
  | floatUpper => 'F'
  | exponent => 'e'
  | exponentUpper => 'E'
  | general => 'g'
  | generalUpper => 'G'
  | hex => 'x'
  | hexUpper => 'X'
  | octal => 'o'
  | string => 's'
  | character => 'c'
  | pointer => 'p'
  | hexFloat => 'a'
  | hexFloatUpper => 'A'

def ofChar? : Char → Option Conversion
  | 'd' => some signedDecimal
  | 'i' => some integer
  | 'u' => some unsigned
  | 'f' => some float
  | 'F' => some floatUpper
  | 'e' => some exponent
  | 'E' => some exponentUpper
  | 'g' => some general
  | 'G' => some generalUpper
  | 'x' => some hex
  | 'X' => some hexUpper
  | 'o' => some octal
  | 's' => some string
  | 'c' => some character
  | 'p' => some pointer
  | 'a' => some hexFloat
  | 'A' => some hexFloatUpper
  | _ => none

theorem mem_all (conversion : Conversion) : conversion ∈ all := by
  cases conversion <;> decide

theorem map_char_all : all.map char = "diufFeEgGxXoscpaA".toList := rfl

/-- The characters that write conversions. -/
theorem exists_char_eq_iff {c : Char} :
    (∃ conversion : Conversion, conversion.char = c) ↔ c ∈ "diufFeEgGxXoscpaA".toList := by
  simp only [← map_char_all, List.mem_map, mem_all, true_and]

/-- The rendering that stands for the conversion. -/
def destination : Conversion → Destination
  | signedDecimal | integer | unsigned => .decimal
  | float | floatUpper | general | generalUpper => .decimal
  | exponent | exponentUpper => .scientific
  | hex | hexFloat => .hex
  | hexUpper | hexFloatUpper => .hexUpper
  | octal => .octal
  | string => .string
  | character => .character
  | pointer => .address

/-- The grammar's table of the tags that stand for the conversion characters. -/
def tags : List (Char × String) :=
  [('d', "d"), ('i', "d"), ('u', "d"), ('f', "d"), ('F', "d"), ('e', "e"), ('E', "e"), ('g', "d"), ('G', "d"),
    ('x', "x"), ('X', "X"), ('o', "o"), ('s', "s"), ('c', "c"), ('p', "*"), ('a', "x"), ('A', "X")]

/-- Every conversion is rendered under the tag that the table has for its character. -/
theorem lookup_tags (conversion : Conversion) : tags.lookup conversion.char = some conversion.destination.tag := by
  cases conversion <;> rfl

/-- What is lost where the rendering is only close to the conversion. -/
def approximation? : Conversion → Option String
  | unsigned => some "unsigned distinction is not represented"
  | general | generalUpper =>
    some "shortest-representation selection is lost; rendered as decimal"
  | hexFloat | hexFloatUpper =>
    some "hexadecimal floating point has no destination tag; rendered as hex"
  | exponentUpper | floatUpper => some "uppercase exponent/infinity spelling is not represented"
  | _ => none

/-- What is known about `c` as a conversion. `n` stores into an argument instead of printing
one, which no rendering does. -/
def support (c : Char) : Support :=
  match ofChar? c with
  | some conversion => .supported conversion
  | none => if c = 'n' then .noEquivalent else .unknown

/-- The refusal of a character that writes no conversion. -/
def unsupportedMessage (c : Char) : String := s!"unsupported conversion character '{c}'"

end Conversion

end BraceTemplate
