import BraceTemplate.Segment

/-! Notes on what a successful conversion leaves out: conversions that are only approximated,
flags without a spelling, and length modifiers. -/
namespace BraceTemplate

/-- What a flag does that no placeholder can say. -/
def Flag.droppedEffect? : Flag → Option String
  | plus => some "forced sign"
  | space => some "space sign"
  | hash => some "alternate form"
  | minus | zero => none

namespace Specifier

/-- A note on the specifier, with one entry of context. -/
def note (specifier : Specifier) (message key value : String) : Diagnostic :=
  (Diagnostic.ofCode .lossyApproximation message (some specifier.span)).withContext
    (.ofList [(key, value)])

/-- The note on a conversion that is only approximated. -/
def conversionNotes (specifier : Specifier) : List Diagnostic :=
  let conversion := specifier.conversion.char.toString
  specifier.conversion.approximation?.toList.map fun loss =>
    specifier.note ("'%" ++ conversion ++ "' is approximated: " ++ loss) "conversion" conversion

/-- The notes on flags that are dropped, in canonical order of the flags. -/
def flagNotes (specifier : Specifier) : List Diagnostic :=
  specifier.field.flags.toList.filterMap fun flag =>
    flag.droppedEffect?.map fun effect =>
      specifier.note
        ("flag '" ++ flag.char.toString ++ "' (" ++ effect
          ++ ") has no destination spelling and is dropped")
        "flag" flag.char.toString

/-- The note on a length modifier. -/
def lengthNotes (specifier : Specifier) : List Diagnostic :=
  specifier.field.length.toList.map fun length =>
    specifier.note ("length modifier '" ++ length.text ++ "' is dropped") "length" length.text

def notes (specifier : Specifier) : List Diagnostic :=
  specifier.conversionNotes ++ specifier.flagNotes ++ specifier.lengthNotes

end Specifier

/-- The notes on a segment. Only specifiers lose anything. -/
def Segment.notes : Segment → List Diagnostic
  | specifier found => found.notes
  | literal .. | percent _ => []

/-- The notes on `source`, in the order of its specifiers. -/
def lint (source : String) : Result (List Diagnostic) := do
  .ok ((← scan source).flatMap Segment.notes)

end BraceTemplate
