import BraceTemplate.Conversion
import BraceTemplate.Decimal
import BraceTemplate.Field

/-! What the grammar of format texts tells apart: the places at which a scanner can stand, and the classes
of characters that it meets there. -/
namespace BraceTemplate

/-- Where in a specifier the next character stands. -/
inductive Position where
  /-- Between specifiers, where a format text may end. -/
  | outside
  /-- Just behind the opening `%`. -/
  | opened
  | flags
  | width
  /-- Behind the dot, where a digit has to follow. -/
  | dot
  | precision
  /-- Behind one length letter, which may still be doubled. -/
  | length (modifier : LengthModifier)
  /-- Behind a doubled length letter, where only the conversion is missing. -/
  | complete
  deriving DecidableEq, Repr

/-- The place in words, as error messages give it. -/
def Position.description : Position → String
  | outside => "start"
  | opened => "after '%'"
  | flags => "flags"
  | width => "width"
  | dot => "after '.'"
  | precision => "precision"
  | length modifier => "length modifier '" ++ modifier.text ++ "'"
  | complete => "awaiting conversion"

/-- What a character can be inside a specifier. The character `0` is a digit here; at some
positions a zero digit is the zero flag. -/
inductive Symbol where
  | digit (d : Fin 10)
  | flag (flag : Flag)
  | length (modifier : LengthModifier)
  | percent
  | dot
  | conversion (conversion : Conversion)
  | noEquivalent
  /-- A letter without a meaning. -/
  | letter
  | other
  deriving DecidableEq, Repr

/-- The class of a character. -/
def Symbol.ofChar (c : Char) : Symbol :=
  match Decimal.digit? c, Flag.ofChar? c, LengthModifier.ofChar? c with
  | some d, _, _ => .digit d
  | none, some sign, _ => .flag sign
  | none, none, some modifier => .length modifier
  | none, none, none =>
    if c = '%' then .percent
    else if c = '.' then .dot
    else match Conversion.support c with
      | .supported found => .conversion found
      | .noEquivalent => .noEquivalent
      | .unknown => if c.isAlpha then .letter else .other

end BraceTemplate
