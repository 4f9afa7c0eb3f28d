import BraceTemplate.Proofs.Block
import BraceTemplate.Proofs.Denotation

/-! Texts without the zero character. They have no zero byte in UTF-8, and the template of one is another, so
that a template can be handed over with a zero byte as its end. -/
namespace BraceTemplate

namespace Text

/-- The bytes of any other character than zero are not zero. Beyond one byte each of them has its mark. -/
private theorem ne_zero_of_mem_utf8EncodeChar {c : Char} (h : c ≠ '\x00') :
    ∀ byte ∈ String.utf8EncodeChar c, byte ≠ 0 := by
  have positive : c.val.toNat ≠ 0 := fun zero => h (Char.ext (UInt32.toNat_inj.mp zero))
  have written {n : Nat} (fits : n < 256) (hn : n ≠ 0) : UInt8.ofNat n ≠ 0 := by
    intro same
    have value := congrArg UInt8.toNat same
    rw [UInt8.toNat_ofNat_of_lt' fits] at value
    exact hn value
  unfold String.utf8EncodeChar
  dsimp only
  (repeat' split) <;> simp only [List.forall_mem_cons, List.not_mem_nil, false_implies, implies_true, and_true]
  · exact written (by omega) positive
  · exact ⟨written (by omega) (by omega), written (by omega) (by omega)⟩
  · exact ⟨written (by omega) (by omega), written (by omega) (by omega), written (by omega) (by omega)⟩
  · exact ⟨written (by omega) (by omega), written (by omega) (by omega), written (by omega) (by omega),
      written (by omega) (by omega)⟩

private theorem toList_data_toByteArray (text : String) :
    text.toByteArray.data.toList = text.toList.flatMap String.utf8EncodeChar := by
  rw [← String.utf8Encode_toList, List.utf8Encode, List.toList_data_toByteArray]

theorem zero_notMem_toByteArray {text : String} (h : '\x00' ∉ text.toList) :
    0 ∉ text.toByteArray.data.toList := by
  rw [toList_data_toByteArray]
  intro member
  obtain ⟨c, hc, zero⟩ := List.mem_flatMap.mp member
  exact ne_zero_of_mem_utf8EncodeChar (fun same => h (same ▸ hc)) 0 zero rfl

end Text

namespace Item

/-- A zero character in the template is one of the format text. -/
private theorem Legal.zero_notMem_template {item : Item} (h : item.Legal) (free : '\x00' ∉ item.text) :
    '\x00' ∉ item.template := by
  cases item with
  | literal c => exact free
  | percent => decide
  | clause clause => exact fun zero => absurd (Clause.Legal.template_subset h zero) (by decide)

private theorem zero_notMem_flatMap_template {items : List Item} (h : ∀ item ∈ items, item.Legal)
    (free : '\x00' ∉ items.flatMap text) : '\x00' ∉ items.flatMap template := by
  intro member
  obtain ⟨item, hm, zero⟩ := List.mem_flatMap.mp member
  exact (h item hm).zero_notMem_template (fun written => free (List.mem_flatMap.mpr ⟨item, hm, written⟩)) zero

end Item

theorem zero_notMem_of_convert {source out : String} (free : '\x00' ∉ source.toList) (ok : convert source = .ok out) :
    '\x00' ∉ out.toList := by
  obtain ⟨items, spell, template⟩ := exists_spell_of_convert ok
  rw [spell.spelled] at free
  rw [template]
  exact Item.zero_notMem_flatMap_template spell.legal free

end BraceTemplate
