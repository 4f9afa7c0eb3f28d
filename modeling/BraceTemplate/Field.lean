import BraceTemplate.Flag

/-! The parts of a conversion specifier between `%` and the conversion character. Among them are the
length modifiers: six have a one-letter spelling, and two of these letters may be doubled. -/
namespace BraceTemplate

/-- The argument size that a specifier asks for. -/
inductive LengthModifier where
  | char
  | short
  | long
  | longLong
  | maximal
  | size
  | difference
  | longDouble
  deriving DecidableEq, Repr

namespace LengthModifier

def all : List LengthModifier :=
  [.char, .short, .long, .longLong, .maximal, .size, .difference, .longDouble]

/-- The spelling of the modifier in a format text. -/
def text : LengthModifier → String
  | char => "hh"
  | short => "h"
  | long => "l"
  | longLong => "ll"
  | maximal => "j"
  | size => "z"
  | difference => "t"
  | longDouble => "L"

theorem mem_all (modifier : LengthModifier) : modifier ∈ all := by
  cases modifier <;> decide

theorem map_text_all : all.map text = ["hh", "h", "l", "ll", "j", "z", "t", "L"] := rfl

/-- The spellings of length modifiers. -/
theorem exists_text_eq_iff {spelling : String} :
    (∃ modifier : LengthModifier, modifier.text = spelling) ↔
      spelling ∈ ["hh", "h", "l", "ll", "j", "z", "t", "L"] := by
  simp only [← map_text_all, List.mem_map, mem_all, true_and]

/-- The modifier that a single character writes. -/
def ofChar? : Char → Option LengthModifier
  | 'h' => some short
  | 'l' => some long
  | 'j' => some maximal
  | 'z' => some size
  | 't' => some difference
  | 'L' => some longDouble
  | _ => none

/-- The modifier written by the letters of two modifiers in a row. -/
def join? : LengthModifier → LengthModifier → Option LengthModifier
  | short, short => some char
  | long, long => some longLong
  | _, _ => none

def ofText? (spelling : String) : Option LengthModifier := all.find? (·.text == spelling)

end LengthModifier

/-- Flags, width, precision and length of a specifier, as far as they were given. -/
structure Field where
  flags : FlagSet
  width : Option UInt32
  precision : Option UInt32
  length : Option LengthModifier
  deriving DecidableEq, Repr

namespace Field

/-- The field of a specifier that gives none of its parts. -/
def empty : Field := ⟨.empty, none, none, none⟩

instance : Inhabited Field := ⟨empty⟩

end Field

end BraceTemplate
