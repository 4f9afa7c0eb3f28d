import BraceTemplate.Proofs.Notes
import Mathlib.Data.List.Forall2

/-! Clauses written in another way. The order of flags and zeros in front of a precision make no difference
to the template or to the notes, and without the flags and lengths that are dropped the template is the same
and only the notes on approximations are left. -/
namespace BraceTemplate

/-- Lists that agree element by element give the same results. -/
private theorem flatMap_eq_of_forall₂ {α β γ : Type} {p : α → β → Prop} {f : α → List γ} {g : β → List γ} {xs : List α}
    {ys : List β} (h : List.Forall₂ p xs ys) (same : ∀ a b, p a b → f a = g b) : xs.flatMap f = ys.flatMap g := by
  have maps : xs.map f = ys.map g := by
    rw [← List.forall₂_eq_eq_eq, List.forall₂_map_left_iff, List.forall₂_map_right_iff]
    exact h.imp same
  rw [List.flatMap_def, List.flatMap_def, maps]

namespace Diagnostic

/-- The finding wherever it was made. -/
def withoutSpan (diagnostic : Diagnostic) : Diagnostic := { diagnostic with span := none }

/-- The finding is about a conversion that is only approximated, as its context says. -/
def isApproximation (diagnostic : Diagnostic) : Bool :=
  diagnostic.context.any fun context => context.entries.map Prod.fst == ["conversion"]

end Diagnostic

namespace Specifier

variable {a b : Specifier}

private theorem map_withoutSpan_conversionNotes (h : a.conversion = b.conversion) :
    a.conversionNotes.map Diagnostic.withoutSpan = b.conversionNotes.map Diagnostic.withoutSpan := by
  rw [conversionNotes, conversionNotes, h, List.map_map, List.map_map]
  rfl

/-- What a specifier says decides on its notes, apart from their places. -/
private theorem map_withoutSpan_notes (field : a.field = b.field) (conversion : a.conversion = b.conversion) :
    a.notes.map Diagnostic.withoutSpan = b.notes.map Diagnostic.withoutSpan := by
  have flags : a.flagNotes.map Diagnostic.withoutSpan = b.flagNotes.map Diagnostic.withoutSpan := by
    rw [flagNotes, flagNotes, field, List.map_filterMap, List.map_filterMap]
    simp only [Option.map_map]
    rfl
  have length : a.lengthNotes.map Diagnostic.withoutSpan = b.lengthNotes.map Diagnostic.withoutSpan := by
    rw [lengthNotes, lengthNotes, field, List.map_map, List.map_map]
    rfl
  rw [notes, notes, List.map_append, List.map_append, List.map_append, List.map_append,
    map_withoutSpan_conversionNotes conversion, flags, length]

/-- The notes on approximations are told from the others by the keys of their contexts. -/
private theorem filter_isApproximation_notes (specifier : Specifier) :
    specifier.notes.filter Diagnostic.isApproximation = specifier.conversionNotes := by
  have conversions : specifier.conversionNotes.filter Diagnostic.isApproximation = specifier.conversionNotes := by
    rw [List.filter_eq_self]
    intro note member
    obtain ⟨loss, -, rfl⟩ := List.mem_map.mp member
    rfl
  have flags : specifier.flagNotes.filter Diagnostic.isApproximation = [] := by
    rw [List.filter_eq_nil_iff]
    intro note member
    obtain ⟨flag, -, made⟩ := List.mem_filterMap.mp member
    obtain ⟨effect, -, rfl⟩ := Option.map_eq_some_iff.mp made
    exact Bool.false_ne_true
  have lengths : specifier.lengthNotes.filter Diagnostic.isApproximation = [] := by
    rw [List.filter_eq_nil_iff]
    intro note member
    obtain ⟨length, -, rfl⟩ := List.mem_map.mp member
    exact Bool.false_ne_true
  rw [notes, List.filter_append, List.filter_append, conversions, flags, lengths, List.append_nil, List.append_nil]

end Specifier

namespace Clause

/-- The clause without the flags and the length that no placeholder has a spelling for. -/
def trimmed (clause : Clause) : Clause :=
  { clause with flags := clause.flags.filter (· ∉ [.plus, .space, .hash]), length := none }

/-- The flags are in another order, and the precision has more or fewer zeros in front. -/
structure Respells (clause other : Clause) : Prop where
  flags : clause.flags.Perm other.flags
  width : clause.width = other.width
  precision : Option.Rel (fun ds es => Decimal.Padded ds es ∧ es ≠ []) clause.precision other.precision
  length : clause.length = other.length
  conversion : clause.conversion = other.conversion

private theorem Legal.trimmed {clause : Clause} (h : clause.Legal) : clause.trimmed.Legal :=
  { h with flags_nodup := h.flags_nodup.filter _ }

private theorem Respells.value_eq {clause other : Clause} (h : clause.Respells other) :
    clause.precision.map (Decimal.valueFrom 0) = other.precision.map (Decimal.valueFrom 0) := by
  have padded := h.precision
  generalize clause.precision = before at padded ⊢
  generalize other.precision = after at padded ⊢
  cases padded with
  | none => rfl
  | some same => exact congrArg some same.1.valueFrom_eq

private theorem Legal.respells {clause other : Clause} (legal : clause.Legal) (h : clause.Respells other) :
    other.Legal where
  flags_nodup := h.flags.nodup_iff.mp legal.flags_nodup
  width_head := h.width ▸ legal.width_head
  width_lt := h.width ▸ legal.width_lt
  precision_ne_nil := by
    intro empty
    have padded := h.precision
    rw [empty] at padded
    generalize clause.precision = before at padded
    cases padded with
    | some same => exact same.2 rfl
  precision_lt := by
    intro digits given
    have value := h.value_eq
    rw [given] at value
    obtain ⟨written, before, same⟩ := Option.map_eq_some_iff.mp value
    exact same ▸ legal.precision_lt written before

private theorem Respells.field_eq {clause other : Clause} (h : clause.Respells other) : clause.field = other.field := by
  have flags : FlagSet.ofList clause.flags = FlagSet.ofList other.flags := by
    apply FlagSet.ext_contains
    intro flag
    simp only [FlagSet.contains_ofList, h.flags.mem_iff]
  have precision := congrArg (Option.map UInt32.ofNat) h.value_eq
  rw [Option.map_map, Option.map_map] at precision
  rw [field, field, flags, h.width, h.length]
  exact congrArg (Field.mk _ _ · _) precision

/-- The placeholder is made of these parts of a clause. -/
private theorem template_congr {clause other : Clause} (conversion : clause.conversion = other.conversion)
    (flags : ∀ flag ∈ [Flag.minus, .zero], flag ∈ clause.flags ↔ flag ∈ other.flags)
    (width : clause.width = other.width)
    (value : clause.precision.map (Decimal.valueFrom 0) = other.precision.map (Decimal.valueFrom 0)) :
    clause.template = other.template := by
  have layout : clause.layout = other.layout := by
    have fraction (precision : Option (List (Fin 10))) :
        precision.elim [] (fun digits => '.' :: Nat.toDigits 10 (Decimal.valueFrom 0 digits)) =
          (precision.map (Decimal.valueFrom 0)).elim [] fun value => '.' :: Nat.toDigits 10 value := by
      cases precision <;> rfl
    simp only [layout_eq, flags .minus (by decide), flags .zero (by decide), width, fraction, value]
  rw [template, template, conversion, layout]

theorem Respells.template_eq {clause other : Clause} (h : clause.Respells other) : clause.template = other.template :=
  template_congr h.conversion (fun _ _ => h.flags.mem_iff) h.width h.value_eq

/-- Nothing of what is left out had a place in the template. -/
theorem template_trimmed (clause : Clause) : clause.trimmed.template = clause.template := by
  refine template_congr rfl (fun flag kept => ?_) rfl rfl
  rw [trimmed, List.mem_filter, and_iff_left]
  revert flag
  decide

/-- There is nothing left to note but that the conversion is approximated. -/
theorem notes_of_respells_trimmed {clause other : Clause} (h : clause.trimmed.Respells other) (span : Span) :
    Specifier.notes ⟨other.field, other.conversion, span⟩ =
      Specifier.conversionNotes ⟨other.field, other.conversion, span⟩ := by
  have flags : Specifier.flagNotes ⟨other.field, other.conversion, span⟩ = [] := by
    rw [Specifier.flagNotes_eq_nil_iff, ← h.field_eq]
    intro flag dropped
    rw [field, FlagSet.contains_ofList, decide_eq_false_iff_not]
    intro kept
    exact absurd dropped (of_decide_eq_true (List.mem_filter.mp kept).2)
  have length : Specifier.lengthNotes ⟨other.field, other.conversion, span⟩ = [] := by
    rw [Specifier.lengthNotes_eq_nil_iff, ← h.field_eq]
    rfl
  rw [Specifier.notes, flags, length, List.append_nil, List.append_nil]

end Clause

namespace Item

/-- Clauses are replaced as `r` allows, and everything else stays. -/
inductive Rewrites (r : Clause → Clause → Prop) : Item → Item → Prop where
  | literal (c : Char) : Rewrites r (.literal c) (.literal c)
  | percent : Rewrites r .percent .percent
  | clause {clause other : Clause} (h : r clause other) : Rewrites r (.clause clause) (.clause other)

/-- The text that the items spell. -/
def print (items : List Item) : String := String.ofList (items.flatMap text)

variable {r : Clause → Clause → Prop} {items others : List Item}

private theorem legal_of_rewrites (h : List.Forall₂ (Rewrites r) items others)
    (preserves : ∀ a b, r a b → a.Legal → b.Legal) (legal : ∀ item ∈ items, item.Legal) :
    ∀ item ∈ others, item.Legal := by
  induction h with
  | nil => exact legal
  | cons first _ ih =>
    obtain ⟨head, rest⟩ := List.forall_mem_cons.mp legal
    refine List.forall_mem_cons.mpr ⟨?_, ih rest⟩
    cases first with
    | literal | percent => exact head
    | clause related => exact preserves _ _ related head

private theorem flatMap_template_of_rewrites (h : List.Forall₂ (Rewrites r) items others)
    (preserves : ∀ a b, r a b → a.template = b.template) : items.flatMap template = others.flatMap template := by
  apply flatMap_eq_of_forall₂ h
  intro item other first
  cases first with
  | literal | percent => rfl
  | clause related => exact preserves _ _ related

/-- The rewritten text is read as the rewritten items. -/
private theorem Spell.rewrites {source : String} (h : Spell items source)
    (rewritten : List.Forall₂ (Rewrites r) items others)
    (preserves : ∀ a b, r a b → a.Legal → b.Legal) : Spell others (print others) :=
  ⟨legal_of_rewrites rewritten preserves h.legal, String.toList_ofList⟩

private theorem Spell.convert_print {source : String} (h : Spell items source) (other : Spell others (print others))
    (rewritten : List.Forall₂ (Rewrites r) items others) (preserves : ∀ a b, r a b → a.template = b.template) :
    BraceTemplate.convert (print others) = BraceTemplate.convert source := by
  rw [h.convert, other.convert, flatMap_template_of_rewrites rewritten preserves]

end Item

namespace Segment

/-- Specifiers are compared clause by clause, wherever they stand in the two texts. -/
private theorem forall₂_specifiers_ofItems {r : Clause → Clause → Prop} {p : Specifier → Specifier → Prop}
    (related : ∀ a b, r a b → ∀ span other, p ⟨a.field, a.conversion, span⟩ ⟨b.field, b.conversion, other⟩)
    {items others : List Item} (h : List.Forall₂ (Item.Rewrites r) items others) (offset behind : Nat)
    (run text : List Char) :
    List.Forall₂ p (specifiers (ofItems offset run items)) (specifiers (ofItems behind text others)) := by
  induction h generalizing offset behind run text with
  | nil =>
    rw [ofItems, ofItems, specifiers_ofRun, specifiers_ofRun]
    exact .nil
  | cons first _ ih =>
    cases first with
    | literal c => exact ih _ _ _ _
    | percent =>
      rw [ofItems, ofItems, specifiers_ofRun_append, specifiers_ofRun_append]
      exact ih _ _ _ _
    | clause same =>
      rw [ofItems, ofItems, specifiers_ofRun_append, specifiers_ofRun_append]
      exact .cons (related _ _ same _ _) (ih _ _ _ _)

end Segment

namespace Item

/-- The specifiers that the items are read as, each where it stands in the text. -/
def specifiers (items : List Item) : List Specifier := Segment.specifiers (Segment.ofItems 0 [] items)

variable {source : String} {items others : List Item} {r : Clause → Clause → Prop}

private theorem Spell.lint_eq_specifiers (h : Spell items source) :
    BraceTemplate.lint source = .ok ((specifiers items).flatMap Specifier.notes) := by
  rw [h.lint, Segment.flatMap_notes, specifiers]

/-- Notes on rewritten clauses are the same, apart from their places, if they are so clause by clause. -/
private theorem map_withoutSpan_of_rewrites {f g : Specifier → List Diagnostic}
    (rewritten : List.Forall₂ (Rewrites r) items others) (same : ∀ a b, r a b → ∀ span other,
      (f ⟨a.field, a.conversion, span⟩).map Diagnostic.withoutSpan =
        (g ⟨b.field, b.conversion, other⟩).map Diagnostic.withoutSpan) :
    ((specifiers items).flatMap f).map Diagnostic.withoutSpan =
      ((specifiers others).flatMap g).map Diagnostic.withoutSpan := by
  rw [List.map_flatMap, List.map_flatMap]
  exact flatMap_eq_of_forall₂ (Segment.forall₂_specifiers_ofItems same rewritten 0 0 [] []) fun _ _ => id

/-- Where flags and lengths are left out, the notes on them are. -/
private theorem flatMap_notes_of_trimmed
    (rewritten : List.Forall₂ (Rewrites fun clause other => clause.trimmed.Respells other) items others) :
    (specifiers others).flatMap Specifier.notes = (specifiers others).flatMap Specifier.conversionNotes := by
  have left := Segment.forall₂_specifiers_ofItems (p := fun _ other => other.notes = other.conversionNotes)
    (fun _ _ related _ => Clause.notes_of_respells_trimmed related) rewritten 0 0 [] []
  change List.Forall₂ _ (specifiers items) (specifiers others) at left
  generalize specifiers items = before at left
  generalize specifiers others = found at left ⊢
  induction left with
  | nil => rfl
  | cons plain _ ih => rw [List.flatMap_cons, List.flatMap_cons, plain, ih]

end Item

/-- In a text that is converted, flags may be put in another order and zeros put in front of a precision or
taken away, and the flags `+`, space and `#` and the lengths may be left out. The text is converted to
the same template. Its notes are those of the text before, or where flags and lengths were left out those of
them that are about approximations, at the places of the clauses as they are now. -/
theorem convert_of_respelled {source out : String} (ok : convert source = .ok out) :
    (∃ items, Item.Spell items source) ∧
    ∀ items, Item.Spell items source → ∃ notes, lint source = .ok notes ∧
      (∀ others, List.Forall₂ (Item.Rewrites Clause.Respells) items others →
        convert (Item.print others) = .ok out ∧
        scan (Item.print others) = .ok (Segment.ofItems 0 [] others) ∧
        lint (Item.print others) = .ok ((Item.specifiers others).flatMap Specifier.notes) ∧
        ((Item.specifiers others).flatMap Specifier.notes).map Diagnostic.withoutSpan =
          notes.map Diagnostic.withoutSpan) ∧
      ∀ others, List.Forall₂ (Item.Rewrites fun clause other => clause.trimmed.Respells other) items others →
        convert (Item.print others) = .ok out ∧
        scan (Item.print others) = .ok (Segment.ofItems 0 [] others) ∧
        lint (Item.print others) = .ok ((Item.specifiers others).flatMap Specifier.conversionNotes) ∧
        ((Item.specifiers others).flatMap Specifier.conversionNotes).map Diagnostic.withoutSpan =
          (notes.filter Diagnostic.isApproximation).map Diagnostic.withoutSpan := by
  obtain ⟨items, ending, reading⟩ := exists_reading source.toList
  refine ⟨⟨items, reading.spell_of_convert ok⟩, fun items spell => ⟨_, spell.lint_eq_specifiers, ?_, ?_⟩⟩
  · intro others rewritten
    have other := spell.rewrites rewritten fun _ _ related legal => legal.respells related
    have template := spell.convert_print other rewritten fun _ _ related => related.template_eq
    refine ⟨template.trans ok, other.scan, other.lint_eq_specifiers, Eq.symm ?_⟩
    exact Item.map_withoutSpan_of_rewrites rewritten fun _ _ related _ _ =>
      Specifier.map_withoutSpan_notes related.field_eq related.conversion
  · intro others rewritten
    have other := spell.rewrites rewritten fun _ _ related legal => legal.trimmed.respells related
    have template := spell.convert_print other rewritten fun clause _ related =>
      clause.template_trimmed.symm.trans related.template_eq
    have left := Item.flatMap_notes_of_trimmed rewritten
    refine ⟨template.trans ok, other.scan, left ▸ other.lint_eq_specifiers, Eq.symm ?_⟩
    rw [List.filter_flatMap]
    simp only [Specifier.filter_isApproximation_notes]
    exact Item.map_withoutSpan_of_rewrites rewritten fun _ _ related _ _ =>
      Specifier.map_withoutSpan_conversionNotes related.conversion

/-- Of two clauses the sign, the length, the alternate form and the zeros are left out, and two flags change
places. The notes on `u` stays. -/
theorem convert_of_respelled_of_trimmed :
    convert "%-05.2u%%%x" = .ok "\x7bd:<5.2\x7d%\x7bx\x7d" ∧
    lint "%-05.2u%%%x" = .ok [Specifier.note
      ⟨⟨.ofList [.minus, .zero], some 5, some 2, none⟩, .unsigned, ⟨0, 7⟩⟩
      "'%u' is approximated: unsigned distinction is not represented" "conversion" "u"] := by
  have ok : convert "%0+-5.002lu%%%#x" = .ok "\x7bd:<5.2\x7d%\x7bx\x7d" := by decide +kernel
  let first : Clause := ⟨[.zero, .plus, .minus], [5], some [0, 0, 2], some .long, .unsigned⟩
  let second : Clause := ⟨[.hash], [], none, none, .hex⟩
  let others : List Item := [.clause ⟨[.minus, .zero], [5], some [2], none, .unsigned⟩, .percent,
    .clause ⟨[], [], none, none, .hex⟩]
  have spell : Item.Spell [.clause first, .percent, .clause second] "%0+-5.002lu%%%#x" := by
    have legal : first.Legal := ⟨by decide, by decide, by decide, by decide, by decide⟩
    have plain : second.Legal := ⟨by decide, by decide, by decide, by decide, by decide⟩
    exact ⟨by simp [Item.Legal, legal, plain], by decide⟩
  have rewritten : List.Forall₂ (Item.Rewrites fun clause other => clause.trimmed.Respells other)
      [.clause first, .percent, .clause second] others := by
    have padded : Decimal.Padded [0, 0, 2] [2] := .intro 2 0 [2]
    exact .cons (.clause ⟨by decide, rfl, .some ⟨padded, by decide⟩, rfl, rfl⟩)
      (.cons .percent (.cons (.clause ⟨by decide, rfl, .none, rfl, rfl⟩) .nil))
  obtain ⟨notes, -, -, trimmed⟩ := (convert_of_respelled ok).2 _ spell
  obtain ⟨converted, -, noted, -⟩ := trimmed others rewritten
  have print : Item.print others = "%-05.2u%%%x" := by decide
  have left : (Item.specifiers others).flatMap Specifier.conversionNotes = [Specifier.note
      ⟨⟨.ofList [.minus, .zero], some 5, some 2, none⟩, .unsigned, ⟨0, 7⟩⟩
      "'%u' is approximated: unsigned distinction is not represented" "conversion" "u"] := by decide +kernel
  rw [print] at converted noted
  exact ⟨converted, noted.trans (congrArg Except.ok left)⟩

end BraceTemplate
