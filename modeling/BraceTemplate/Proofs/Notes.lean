import BraceTemplate.Proofs.Segments

/-! Notes, one specifier at a time. Only the specifiers of a text are noted on, and there is no note on a
specifier exactly if its conversion, its flags and its length are all kept by its placeholder. -/
namespace BraceTemplate

theorem FlagSet.mem_toList {set : FlagSet} {flag : Flag} : flag ∈ set.toList ↔ set.contains flag := by
  rw [toList, List.mem_filter, and_iff_right flag.mem_all]

namespace Specifier

variable {specifier : Specifier}

theorem conversionNotes_eq_nil_iff : specifier.conversionNotes = [] ↔ specifier.conversion.approximation? = none := by
  rw [conversionNotes, List.map_eq_nil_iff, Option.toList_eq_nil_iff]

theorem flagNotes_eq_nil_iff :
    specifier.flagNotes = [] ↔ ∀ flag ∈ [Flag.plus, .space, .hash], specifier.field.flags.contains flag = false := by
  simp only [flagNotes, List.filterMap_eq_nil_iff, FlagSet.mem_toList, Option.map_eq_none_iff]
  constructor
  · intro unnoted flag dropped
    apply Bool.eq_false_iff.mpr
    intro given
    have effect := unnoted flag given
    revert effect dropped
    cases flag <;> decide
  · intro plain flag given
    cases flag with
    | minus | zero => rfl
    | plus | space | hash => exact absurd given (by rw [plain _ (by decide)]; decide)

theorem lengthNotes_eq_nil_iff : specifier.lengthNotes = [] ↔ specifier.field.length = none := by
  rw [lengthNotes, List.map_eq_nil_iff, Option.toList_eq_nil_iff]

/-- There is no note exactly if nothing is dropped or approximated. -/
theorem notes_eq_nil_iff :
    specifier.notes = [] ↔ specifier.conversion.approximation? = none ∧
      (∀ flag ∈ [Flag.plus, .space, .hash], specifier.field.flags.contains flag = false) ∧
      specifier.field.length = none := by
  rw [notes, List.append_eq_nil_iff, List.append_eq_nil_iff, conversionNotes_eq_nil_iff, flagNotes_eq_nil_iff,
    lengthNotes_eq_nil_iff, and_assoc]

end Specifier

namespace Segment

def specifier? : Segment → Option Specifier
  | specifier found => some found
  | literal .. | percent _ => none

/-- The specifiers of a text in order. -/
def specifiers (segments : List Segment) : List Specifier := segments.filterMap specifier?

theorem specifiers_ofRun (run : List Char) (stop : Nat) : specifiers (ofRun run stop) = [] := by
  unfold ofRun
  split <;> rfl

theorem specifiers_ofRun_append (run : List Char) (stop : Nat) (segments : List Segment) :
    specifiers (ofRun run stop ++ segments) = specifiers segments := by
  unfold ofRun
  split <;> rfl

theorem flatMap_notes (segments : List Segment) :
    segments.flatMap notes = (specifiers segments).flatMap Specifier.notes := by
  induction segments with
  | nil => rfl
  | cons segment segments ih =>
    rw [List.flatMap_cons, ih]
    cases segment <;> rfl

end Segment

/-- The notes on a text are those on its segments. -/
theorem lint_eq_ok_iff {source : String} {notes : List Diagnostic} :
    lint source = .ok notes ↔ ∃ segments, scan source = .ok segments ∧ segments.flatMap Segment.notes = notes := by
  unfold lint
  cases scan source with
  | error failure => exact ⟨nofun, nofun⟩
  | ok segments => simp [bind, Except.bind]

end BraceTemplate
