import BraceTemplate.Proofs.Transcode

/-! The meaning of format texts. A text is converted exactly if it is spelled by items of the grammar,
which it then determines, and its template is put together from theirs. -/
namespace BraceTemplate

namespace Clause

/-- Alignment, width and precision of the placeholder in terms of the spelling alone. -/
theorem layout_eq (clause : Clause) :
    clause.layout =
      (if .minus ∈ clause.flags then ['<'] else if .zero ∈ clause.flags then ['0', '>'] else [])
        ++ Decimal.spell clause.width
        ++ clause.precision.elim [] fun digits => '.' :: Nat.toDigits 10 (Decimal.valueFrom 0 digits) := by
  unfold layout FlagSet.alignment?
  simp only [FlagSet.contains_ofList, decide_eq_true_eq, Decimal.digits_eq_toDigits]
  by_cases minus : .minus ∈ clause.flags
  · rw [if_pos minus, if_pos minus]
    rfl
  · rw [if_neg minus, if_neg minus]
    by_cases zero : .zero ∈ clause.flags
    · rw [if_pos zero, if_pos zero]
      rfl
    · rw [if_neg zero, if_neg zero]
      rfl

/-- The alignment of the placeholder in terms of the flag characters that are written. -/
theorem layout_eq_of_chars (clause : Clause) :
    clause.layout =
      (if '-' ∈ clause.flags.map Flag.char then ['<']
        else if '0' ∈ clause.flags.map Flag.char then ['0', '>'] else [])
        ++ Decimal.spell clause.width
        ++ clause.precision.elim [] fun digits => '.' :: Nat.toDigits 10 (Decimal.valueFrom 0 digits) := by
  have minus : '-' ∈ clause.flags.map Flag.char ↔ .minus ∈ clause.flags := Flag.char_mem_map .minus
  have zero : '0' ∈ clause.flags.map Flag.char ↔ .zero ∈ clause.flags := Flag.char_mem_map .zero
  simp only [minus, zero, layout_eq]

/-- The placeholder has the tag of the conversion character, and a colon only in front of a layout. -/
theorem exists_template_eq (clause : Clause) :
    ∃ tag, Conversion.tags.lookup clause.conversion.char = some tag ∧
      clause.template = '\x7b' :: tag.toList
        ++ (if clause.layout = [] then [] else ':' :: clause.layout) ++ ['\x7d'] := by
  refine ⟨_, clause.conversion.lookup_tags, ?_⟩
  simp only [template, List.isEmpty_iff]

end Clause

namespace Item

/-- The items are legal, and `source` is their spelling. -/
structure Spell (items : List Item) (source : String) : Prop where
  legal : ∀ item ∈ items, item.Legal
  spelled : source.toList = items.flatMap text

end Item

variable {source : String} {items : List Item} {ending : Ending}

theorem Item.Spell.reading (h : Item.Spell items source) : Reading source.toList items .complete where
  items_legal := h.legal
  ending_legal := trivial
  spelled := by rw [h.spelled, Ending.text, List.append_nil]

theorem Item.Spell.convert (h : Item.Spell items source) :
    convert source = .ok (String.ofList (items.flatMap Item.template)) := by
  rw [h.reading.convert]
  rfl

theorem Reading.spell (h : Reading source.toList items .complete) : Item.Spell items source :=
  ⟨h.items_legal, by rw [h.spelled, Ending.text, List.append_nil]⟩

/-- A text that is converted has no ending of its own. -/
theorem Reading.spell_of_convert (h : Reading source.toList items ending) {out : String}
    (ok : BraceTemplate.convert source = .ok out) : Item.Spell items source := by
  rw [h.convert] at ok
  cases ending with
  | complete => exact h.spell
  | unterminated | refused => cases ok

theorem exists_spell_of_convert {out : String} (ok : convert source = .ok out) :
    ∃ items, Item.Spell items source ∧ out.toList = items.flatMap Item.template := by
  obtain ⟨items, ending, reading⟩ := exists_reading source.toList
  have spell := reading.spell_of_convert ok
  obtain rfl : String.ofList (items.flatMap Item.template) = out := Except.ok.inj (spell.convert.symm.trans ok)
  exact ⟨items, spell, String.toList_ofList⟩

/-- Conversion succeeds exactly on the spellings of legal items and gives their templates in order.
A text is the spelling of at most one sequence of items. A placeholder has the tag of its conversion
character and takes over the alignment of its flags, the width digit for digit, and the value of the
precision. -/
theorem convert_eq_ok_iff (source : String) :
    (∀ out : String, convert source = .ok out ↔
      ∃ items, Item.Spell items source ∧ out.toList = items.flatMap Item.template) ∧
    (∀ items others, Item.Spell items source → Item.Spell others source → items = others) ∧
    (∀ c, (∃ flag : Flag, flag.char = c) ↔ c ∈ "-+ #0".toList) ∧
    (∀ spelling, (∃ modifier : LengthModifier, modifier.text = spelling) ↔
      spelling ∈ ["hh", "h", "l", "ll", "j", "z", "t", "L"]) ∧
    (∀ c, (∃ conversion : Conversion, conversion.char = c) ↔ c ∈ "diufFeEgGxXoscpaA".toList) ∧
    ∀ clause : Clause,
      (∃ tag, Conversion.tags.lookup clause.conversion.char = some tag ∧
        clause.template = '\x7b' :: tag.toList
          ++ (if clause.layout = [] then [] else ':' :: clause.layout) ++ ['\x7d']) ∧
      clause.layout =
        (if '-' ∈ clause.flags.map Flag.char then ['<']
          else if '0' ∈ clause.flags.map Flag.char then ['0', '>'] else [])
          ++ Decimal.spell clause.width
          ++ clause.precision.elim [] fun digits => '.' :: Nat.toDigits 10 (Decimal.valueFrom 0 digits) := by
  refine ⟨?_, ?_, fun _ => Flag.exists_char_eq_iff, fun _ => LengthModifier.exists_text_eq_iff,
    fun _ => Conversion.exists_char_eq_iff, fun clause => ⟨clause.exists_template_eq, clause.layout_eq_of_chars⟩⟩
  · intro out
    constructor
    · exact exists_spell_of_convert
    · rintro ⟨items, spell, text⟩
      rw [spell.convert, ← text, String.ofList_toList]
  · intro items others one two
    exact Item.flatMap_text_inj one.legal two.legal (one.spelled.symm.trans two.spelled)

end BraceTemplate
