import BraceTemplate.Proofs.Agreement
import BraceTemplate.Proofs.Block

/-! Percent signs in templates. There is one for each escape of the format text and no other, and so at most half as
many as in that text. A template is thus its own template exactly if nothing was escaped, and every text is the
template of itself with its percent signs doubled. -/
namespace BraceTemplate

/-- The text with two percent signs in place of each. -/
def Text.doubled (text : String) : String :=
  String.ofList (text.toList.flatMap fun c => if c = '%' then ['%', '%'] else [c])

def Segment.isPercent : Segment → Bool
  | percent _ => true
  | literal .. | specifier _ => false

/-- A placeholder has no percent sign, whatever clause it stands for. -/
theorem Clause.Legal.count_template {clause : Clause} (h : clause.Legal) : clause.template.count '%' = 0 :=
  List.count_eq_zero.mpr fun sign => absurd (h.template_subset sign) (by decide)

namespace Item

def isPercent : Item → Bool
  | percent => true
  | literal _ | clause _ => false

/-- The item that shows `c` in the template. -/
def ofChar (c : Char) : Item := if c = '%' then .percent else .literal c

private theorem legal_ofChar (c : Char) : (ofChar c).Legal := by
  unfold ofChar
  split
  · trivial
  · next other => exact other

private theorem text_ofChar (c : Char) : (ofChar c).text = if c = '%' then ['%', '%'] else [c] := by
  unfold ofChar
  split <;> rfl

private theorem template_ofChar (c : Char) : (ofChar c).template = [c] := by
  unfold ofChar
  split
  · next sign => rw [sign]; rfl
  · rfl

private theorem Legal.count_template {item : Item} (h : item.Legal) :
    item.template.count '%' = if item.isPercent then 1 else 0 := by
  cases item with
  | literal c => exact List.count_eq_zero.mpr (by simpa [template] using Ne.symm h)
  | percent => rfl
  | clause clause => exact Clause.Legal.count_template h

/-- An escape takes two percent signs for one, and what else has one shows none. -/
private theorem Legal.two_mul_count_template_le {item : Item} (h : item.Legal) :
    2 * item.template.count '%' ≤ item.text.count '%' := by
  rw [h.count_template]
  cases item with
  | literal | clause => exact Nat.zero_le _
  | percent => decide

private theorem count_flatMap_template {items : List Item} (h : ∀ item ∈ items, item.Legal) :
    (items.flatMap template).count '%' = items.countP isPercent := by
  induction items with
  | nil => rfl
  | cons item items ih =>
    obtain ⟨legal, rest⟩ := List.forall_mem_cons.mp h
    rw [List.flatMap_cons, List.count_append, legal.count_template, ih rest, List.countP_cons, Nat.add_comm]

private theorem two_mul_count_flatMap_template_le {items : List Item} (h : ∀ item ∈ items, item.Legal) :
    2 * (items.flatMap template).count '%' ≤ (items.flatMap text).count '%' := by
  induction items with
  | nil => exact Nat.le_refl 0
  | cons item items ih =>
    obtain ⟨legal, rest⟩ := List.forall_mem_cons.mp h
    rw [List.flatMap_cons, List.flatMap_cons, List.count_append, List.count_append, Nat.mul_add]
    exact Nat.add_le_add legal.two_mul_count_template_le (ih rest)

end Item

/-- Every escape is a segment of its own. -/
private theorem Segment.countP_isPercent_ofItems (offset : Nat) (run : List Char) (items : List Item) :
    (ofItems offset run items).countP isPercent = items.countP Item.isPercent := by
  have none (run : List Char) (stop : Nat) : (ofRun run stop).countP isPercent = 0 := by
    unfold ofRun
    split <;> rfl
  induction items generalizing offset run with
  | nil => exact none run offset
  | cons item items ih =>
    cases item with
    | literal c => rw [ofItems, ih]; rfl
    | percent | clause =>
      rw [ofItems, List.countP_append, none, List.countP_cons, ih, List.countP_cons, Nat.zero_add]
      rfl

/-- A template has at most half as many percent signs as its text. -/
theorem two_mul_count_le_of_convert {source out : String} (ok : convert source = .ok out) :
    2 * out.toList.count '%' ≤ source.toList.count '%' := by
  obtain ⟨items, spell, text⟩ := exists_spell_of_convert ok
  rw [text, spell.spelled]
  exact Item.two_mul_count_flatMap_template_le spell.legal

private theorem Item.spell_doubled (text : String) : Item.Spell (text.toList.map Item.ofChar) (Text.doubled text) where
  legal := by
    intro item member
    obtain ⟨c, -, rfl⟩ := List.mem_map.mp member
    exact Item.legal_ofChar c
  spelled := by
    rw [Text.doubled, String.toList_ofList, List.flatMap_map]
    simp only [Item.text_ofChar]

private theorem Item.flatMap_template_ofChar (text : List Char) : (text.map Item.ofChar).flatMap template = text := by
  simp [List.flatMap_map, template_ofChar]

private theorem Text.doubled_eq_self {text : String} (free : '%' ∉ text.toList) : doubled text = text := by
  have single (c : Char) (member : c ∈ text.toList) : (if c = '%' then ['%', '%'] else [c]) = [c] :=
    if_neg (ne_of_mem_of_not_mem member free)
  rw [doubled, List.flatMap_congr single, List.flatMap_singleton', String.ofList_toList]

theorem convert_doubled (text : String) : convert (Text.doubled text) = .ok text := by
  rw [(Item.spell_doubled text).convert, Item.flatMap_template_ofChar, String.ofList_toList]

/-- The texts that are their own templates are those without percent signs. -/
theorem convert_eq_self_iff {text : String} : convert text = .ok text ↔ '%' ∉ text.toList := by
  constructor
  · intro same
    have fewer := two_mul_count_le_of_convert same
    exact List.count_eq_zero.mp (by omega)
  · intro free
    have converted := convert_doubled text
    rwa [Text.doubled_eq_self free] at converted

/-- A template has as many percent signs as there were escapes in its text, so that it is its own template exactly
if there was none. A text with its percent signs doubled is converted to that text, and estimated exactly. -/
theorem percent_signs_are_escapes (source text : String) :
    (∀ out, convert source = .ok out → ∃ segments, scan source = .ok segments ∧
      out.toList.count '%' = segments.countP Segment.isPercent ∧
      (convert out = .ok out ↔ ∀ segment ∈ segments, segment.isPercent = false)) ∧
    convert (Text.doubled text) = .ok text ∧ estimateCapacity (Text.doubled text) .exact = .ok text.utf8ByteSize := by
  refine ⟨fun out ok => ?_, convert_doubled text, ?_⟩
  · obtain ⟨items, spell, template⟩ := exists_spell_of_convert ok
    have signs : out.toList.count '%' = (Segment.ofItems 0 [] items).countP Segment.isPercent := by
      rw [template, Item.count_flatMap_template spell.legal, Segment.countP_isPercent_ofItems]
    refine ⟨_, spell.scan, signs, ?_⟩
    rw [convert_eq_self_iff, ← List.count_eq_zero, signs, List.countP_eq_zero]
    simp only [Bool.not_eq_true]
  · rw [(Item.spell_doubled text).estimate, Item.flatMap_template_ofChar, Text.byteCount_toList]

/-- An escape shows a percent sign, and a converted specifier none. -/
theorem percent_signs_are_escapes_of_escape :
    ∃ segments, scan "50%% of %-3d" = .ok segments ∧
      "50% of \x7bd:<3\x7d".toList.count '%' = segments.countP Segment.isPercent ∧
      (convert "50% of \x7bd:<3\x7d" = .ok "50% of \x7bd:<3\x7d" ↔
        ∀ segment ∈ segments, segment.isPercent = false) := by
  have converted : convert "50%% of %-3d" = .ok "50% of \x7bd:<3\x7d" := by decide +kernel
  exact (percent_signs_are_escapes _ "").1 _ converted

end BraceTemplate
