import BraceTemplate.Transcode

/-! The grammar of format texts as data: the items that a legal text consists of, their spelling and
the text that each contributes to the template. -/
namespace BraceTemplate

/-- A specifier as it is spelled. Flags stand in any order, and the digits of width and precision
are those that are written; a specifier without width has no width digits. -/
structure Clause where
  flags : List Flag
  width : List (Fin 10)
  precision : Option (List (Fin 10))
  length : Option LengthModifier
  conversion : Conversion
  deriving DecidableEq, Repr

namespace Clause

/-- The spelling of the part before the precision: percent sign, flags and width. -/
def opening (clause : Clause) : List Char :=
  '%' :: clause.flags.map Flag.char ++ Decimal.spell clause.width

/-- The spelling of the precision. -/
def fraction (clause : Clause) : List Char :=
  clause.precision.elim [] fun digits => '.' :: Decimal.spell digits

def text (clause : Clause) : List Char :=
  clause.opening ++ clause.fraction ++ clause.length.elim [] (·.text.toList)
    ++ [clause.conversion.char]

/-- The clauses of the grammar: no flag twice, a width that does not begin with zero, at least one
digit behind a dot, and both numbers within 32 bits. -/
structure Legal (clause : Clause) : Prop where
  flags_nodup : clause.flags.Nodup
  width_head : clause.width.head? ≠ some 0
  width_lt : Decimal.valueFrom 0 clause.width < UInt32.size
  precision_ne_nil : clause.precision ≠ some []
  precision_lt : ∀ digits ∈ clause.precision, Decimal.valueFrom 0 digits < UInt32.size

/-- What the clause says, without the ways in which it can be spelled. -/
def field (clause : Clause) : Field where
  flags := .ofList clause.flags
  width := if clause.width.isEmpty then none
    else some (UInt32.ofNat (Decimal.valueFrom 0 clause.width))
  precision := clause.precision.map fun digits => UInt32.ofNat (Decimal.valueFrom 0 digits)
  length := clause.length

/-- What stands behind the colon of the clause's placeholder: the alignment, the width as it is
spelled, and the precision without superfluous zeros. -/
def layout (clause : Clause) : List Char :=
  (FlagSet.ofList clause.flags).alignment?.elim [] (·.text.toList) ++ Decimal.spell clause.width
    ++ clause.precision.elim [] fun digits => '.' :: Decimal.digits (Decimal.valueFrom 0 digits)

/-- The placeholder that the clause becomes. A placeholder without layout has no colon. -/
def template (clause : Clause) : List Char :=
  '\x7b' :: clause.conversion.destination.tag.toList
    ++ (if clause.layout.isEmpty then [] else ':' :: clause.layout) ++ ['\x7d']

end Clause

/-- A smallest piece of a format text that has a meaning of its own. -/
inductive Item where
  | literal (c : Char)
  | percent
  | clause (clause : Clause)
  deriving DecidableEq, Repr

namespace Item

def text : Item → List Char
  | literal c => [c]
  | percent => ['%', '%']
  | clause written => written.text

/-- What the item contributes to the template. -/
def template : Item → List Char
  | literal c => [c]
  | percent => ['%']
  | clause written => written.template

/-- The items of the grammar. A percent sign is never literal. -/
def Legal : Item → Prop
  | literal c => c ≠ '%'
  | percent => True
  | clause written => written.Legal

end Item

end BraceTemplate
