import BraceTemplate.Proofs.Chunk
import BraceTemplate.Proofs.Reading

/-! How much longer a template is than what it is written for. No item takes more than twice the
bytes of its spelling, so twice the bytes of a text are room for all that is written for it. -/
namespace BraceTemplate

namespace Text

theorem byteCount_eq_length {chars : List Char} (h : ∀ c ∈ chars, c.utf8Size = 1) :
    byteCount chars = chars.length := by
  induction chars with
  | nil => rfl
  | cons c chars ih =>
    rw [byteCount, h c (by simp), ih fun other member => h other (by simp [member]), List.length_cons, Nat.add_comm]

@[simp] theorem byteCount_spell (ds : List (Fin 10)) : byteCount (Decimal.spell ds) = ds.length := by
  rw [byteCount_eq_length, Decimal.length_spell]
  intro c member
  obtain ⟨d, -, rfl⟩ := List.mem_map.mp member
  exact Decimal.utf8Size_digitChar d

private theorem byteCount_digits (n : Nat) : byteCount (Decimal.digits n) = (Decimal.digits n).length := by
  obtain ⟨ds, spelled, -⟩ := Decimal.exists_spell_digits n
  rw [spelled, byteCount_spell, Decimal.length_spell]

end Text

namespace Clause

/-- Zeros in front take two bytes for one flag, and no other flag takes more. -/
private theorem byteCount_alignment_le (flags : List Flag) :
    Text.byteCount ((FlagSet.ofList flags).alignment?.elim [] (·.text.toList)) ≤ 2 * flags.length := by
  have needs (flag : Flag) (h : (FlagSet.ofList flags).contains flag = true) : 0 < flags.length := by
    rw [FlagSet.contains_ofList, decide_eq_true_eq] at h
    exact List.length_pos_of_mem h
  unfold FlagSet.alignment?
  split
  · next minus =>
    have := needs _ minus
    exact Nat.le_trans (by decide : (1 : Nat) ≤ 2 * 1) (by omega)
  · split
    · next zero =>
      have := needs _ zero
      exact Nat.le_trans (by decide : (2 : Nat) ≤ 2 * 1) (by omega)
    · exact Nat.zero_le _

/-- The precision of a placeholder is not longer than that of the clause. -/
private theorem Legal.byteCount_fraction_le {clause : Clause} (h : clause.Legal) :
    Text.byteCount (clause.precision.elim [] fun digits => '.' :: Decimal.digits (Decimal.valueFrom 0 digits)) ≤
      Text.byteCount clause.fraction := by
  unfold fraction
  cases precision : clause.precision with
  | none => exact Nat.le_refl 0
  | some digits =>
    have some_digit : digits ≠ [] := fun empty => h.precision_ne_nil (by rw [precision, empty])
    have shorter := Decimal.length_digits_valueFrom_le some_digit
    rw [Option.elim_some, Option.elim_some, Text.byteCount, Text.byteCount, Text.byteCount_digits,
      Text.byteCount_spell]
    omega

private theorem byteCount_text (clause : Clause) :
    Text.byteCount clause.text = 2 + clause.flags.length + clause.width.length + Text.byteCount clause.fraction +
      Text.byteCount (clause.length.elim [] (·.text.toList)) := by
  have flags : Text.byteCount (clause.flags.map Flag.char) = clause.flags.length := by
    rw [Text.byteCount_eq_length, List.length_map]
    intro c member
    obtain ⟨flag, -, rfl⟩ := List.mem_map.mp member
    cases flag <;> rfl
  have conversion : clause.conversion.char.utf8Size = 1 := by cases clause.conversion <;> rfl
  have opening : '%'.utf8Size = 1 := rfl
  simp only [text, Clause.opening, Text.byteCount_append, List.cons_append, Text.byteCount,
    Text.byteCount_spell, flags, conversion, opening]
  omega

private theorem byteCount_template (clause : Clause) :
    Text.byteCount clause.template =
      if clause.layout.isEmpty then 3 else 4 + Text.byteCount clause.layout := by
  have tag : Text.byteCount clause.conversion.destination.tag.toList = 1 := by
    cases clause.conversion.destination <;> rfl
  have brace : '\x7b'.utf8Size = 1 ∧ '\x7d'.utf8Size = 1 ∧ ':'.utf8Size = 1 := ⟨rfl, rfl, rfl⟩
  rw [template, Text.byteCount_append, List.cons_append, Text.byteCount, Text.byteCount_append,
    Text.byteCount_singleton, tag, brace.1, brace.2.1]
  split
  · rfl
  · rw [Text.byteCount, brace.2.2]
    omega

/-- The layout takes no more than the parts of the clause that it stands for, flags counted twice. -/
private theorem Legal.byteCount_layout_le {clause : Clause} (h : clause.Legal) :
    Text.byteCount clause.layout ≤
      Text.byteCount ((FlagSet.ofList clause.flags).alignment?.elim [] (·.text.toList)) + clause.width.length +
        Text.byteCount clause.fraction := by
  have fraction := h.byteCount_fraction_le
  rw [layout, Text.byteCount_append, Text.byteCount_append, Text.byteCount_spell]
  omega

theorem Legal.byteCount_template_le {clause : Clause} (h : clause.Legal) :
    Text.byteCount clause.template ≤ 2 * Text.byteCount clause.text := by
  have alignment := byteCount_alignment_le clause.flags
  have layout := h.byteCount_layout_le
  rw [byteCount_template, byteCount_text]
  split <;> omega

/-- The clause with the one flag for zeros in front and no other part. -/
def zeroFilled (conversion : Conversion) : Clause := ⟨[.zero], [], none, none, conversion⟩

private theorem byteCount_length_eq_zero_iff {length : Option LengthModifier} :
    Text.byteCount (length.elim [] (·.text.toList)) = 0 ↔ length = none := by
  cases length with
  | none => decide
  | some modifier => cases modifier <;> decide

/-- Only zeros in front take all the room that the bound leaves for the flags. -/
private theorem eq_zero_of_byteCount_alignment {flags : List Flag} (some_flag : flags ≠ [])
    (h : Text.byteCount ((FlagSet.ofList flags).alignment?.elim [] (·.text.toList)) = 2 * flags.length) :
    flags = [.zero] := by
  have given := List.length_pos_iff.mpr some_flag
  unfold FlagSet.alignment? at h
  split at h
  · have left : 1 = 2 * flags.length := h
    omega
  · split at h
    · next zero =>
      have single : 2 = 2 * flags.length := h
      rw [FlagSet.contains_ofList, decide_eq_true_eq] at zero
      obtain ⟨flag, rfl⟩ := List.length_eq_one_iff.mp (by omega : flags.length = 1)
      rw [List.mem_singleton.mp zero]
    · have nothing : 0 = 2 * flags.length := h
      omega

/-- The placeholder takes twice the bytes of its clause only if every part that could be longer than what
becomes of it is missing. -/
theorem Legal.byteCount_template_eq_iff {clause : Clause} (h : clause.Legal) :
    Text.byteCount clause.template = 2 * Text.byteCount clause.text ↔ clause = zeroFilled clause.conversion := by
  constructor
  · intro tight
    have alignment := byteCount_alignment_le clause.flags
    have layout := h.byteCount_layout_le
    rw [byteCount_template, byteCount_text] at tight
    split at tight
    · omega
    · next given =>
      have width : clause.width = [] := List.length_eq_zero_iff.mp (by omega)
      have fraction : Text.byteCount clause.fraction = 0 := by omega
      have length : clause.length = none := byteCount_length_eq_zero_iff.mp (by omega)
      have precision : clause.precision = none := by
        cases digits : clause.precision with
        | none => rfl
        | some digits =>
          rw [Clause.fraction, digits, Option.elim_some, Text.byteCount] at fraction
          have dot : '.'.utf8Size = 1 := rfl
          omega
      have some_flag : clause.flags ≠ [] := by
        intro none
        apply given
        rw [Clause.layout, none, width, precision]
        rfl
      have flags := eq_zero_of_byteCount_alignment some_flag (by omega)
      obtain ⟨_, _, _, _, conversion⟩ := clause
      subst flags width precision length
      rfl
  · intro same
    rw [same]
    cases clause.conversion <;> rfl

end Clause

namespace Item

theorem Legal.byteCount_template_le {item : Item} (h : item.Legal) :
    Text.byteCount item.template ≤ 2 * Text.byteCount item.text := by
  cases item with
  | literal c =>
    rw [template, text]
    omega
  | percent => decide
  | clause written => exact Clause.Legal.byteCount_template_le h

private theorem Legal.byteCount_template_eq_iff {item : Item} (h : item.Legal) :
    Text.byteCount item.template = 2 * Text.byteCount item.text ↔
      ∃ conversion, item = .clause (Clause.zeroFilled conversion) := by
  cases item with
  | literal c =>
    have wide := c.utf8Size_pos
    simp only [template, text, Text.byteCount_singleton, reduceCtorEq, exists_false, iff_false]
    omega
  | percent =>
    have wasted : Text.byteCount (template percent) ≠ 2 * Text.byteCount (text percent) := by decide
    simp [wasted]
  | clause written =>
    rw [template, text, Clause.Legal.byteCount_template_eq_iff h]
    constructor
    · intro same
      exact ⟨written.conversion, congrArg clause same⟩
    · rintro ⟨conversion, same⟩
      cases same
      rfl

/-- Items take at most twice the bytes of their spelling. -/
theorem byteCount_flatMap_template_le {items : List Item} (h : ∀ item ∈ items, item.Legal) :
    Text.byteCount (items.flatMap template) ≤ 2 * Text.byteCount (items.flatMap text) := by
  induction items with
  | nil => exact Nat.le_refl 0
  | cons item items ih =>
    have first := (h item (by simp)).byteCount_template_le
    have rest := ih fun other hm => h other (by simp [hm])
    rw [List.flatMap_cons, List.flatMap_cons, Text.byteCount_append, Text.byteCount_append]
    omega

/-- Items take twice the bytes of their spelling only if each of them does. -/
theorem byteCount_flatMap_template_eq_iff {items : List Item} (h : ∀ item ∈ items, item.Legal) :
    Text.byteCount (items.flatMap template) = 2 * Text.byteCount (items.flatMap text) ↔
      ∃ conversions : List Conversion, items = conversions.map fun conversion => clause (.zeroFilled conversion) := by
  induction items with
  | nil => exact ⟨fun _ => ⟨[], rfl⟩, fun _ => rfl⟩
  | cons item items ih =>
    have later : ∀ other ∈ items, other.Legal := fun other hm => h other (by simp [hm])
    have first := (h item (by simp)).byteCount_template_le
    have rest := byteCount_flatMap_template_le later
    have both : Text.byteCount ((item :: items).flatMap template) = 2 * Text.byteCount ((item :: items).flatMap text) ↔
        Text.byteCount item.template = 2 * Text.byteCount item.text ∧
          Text.byteCount (items.flatMap template) = 2 * Text.byteCount (items.flatMap text) := by
      rw [List.flatMap_cons, List.flatMap_cons, Text.byteCount_append, Text.byteCount_append]
      omega
    rw [both, (h item (by simp)).byteCount_template_eq_iff, ih later]
    constructor
    · rintro ⟨⟨conversion, rfl⟩, conversions, rfl⟩
      exact ⟨conversion :: conversions, rfl⟩
    · rintro ⟨conversions, same⟩
      cases conversions with
      | nil => cases same
      | cons conversion conversions =>
        obtain ⟨rfl, rfl⟩ := List.cons.inj same
        exact ⟨⟨conversion, rfl⟩, conversions, rfl⟩

end Item

end BraceTemplate
