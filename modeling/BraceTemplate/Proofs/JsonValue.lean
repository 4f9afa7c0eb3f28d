import BraceTemplate.Json.Exchange
import BraceTemplate.Proofs.Decimal
import Mathlib.Data.List.Nodup

/-! JSON values apart from the order of members. Sorting the members of a value gives the same value, and its text
has no zero character, so that it can be handed over as a text that one ends. -/
namespace BraceTemplate

namespace Json

/-- No object has a key twice, and no number is spelled with a zero character. -/
inductive Proper : Json → Prop where
  | null : Proper .null
  | bool (value : Bool) : Proper (.bool value)
  | natural (value : Nat) : Proper (.natural value)
  | number {spelling : String} (free : '\x00' ∉ spelling.toList) : Proper (.number spelling)
  | string (value : String) : Proper (.string value)
  | array {items : List Json} (each : ∀ item ∈ items, Proper item) : Proper (.array items)
  | object {members : List (String × Json)} (distinct : (members.map Prod.fst).Nodup)
    (each : ∀ member ∈ members, Proper member.2) : Proper (.object members)

/-- The values are the same, whichever order the members of their objects are in. Members are only put in another
order where no key is there twice, as a reader takes one of them then. -/
inductive Same : Json → Json → Prop where
  | refl (value : Json) : Same value value
  | array {items others : List Json} (length : items.length = others.length)
    (each : ∀ pair ∈ items.zip others, Same pair.1 pair.2) : Same (.array items) (.array others)
  | object {members middle others : List (String × Json)} (distinct : (members.map Prod.fst).Nodup)
    (keys : members.map Prod.fst = middle.map Prod.fst)
    (each : ∀ pair ∈ members.zip middle, Same pair.1.2 pair.2.2) (order : middle.Perm others) :
    Same (.object members) (.object others)

section Sorted

private theorem perm_insertMember (member : String × Json) (members : List (String × Json)) :
    (member :: members).Perm (insertMember member members) := by
  induction members with
  | nil => exact .refl _
  | cons head rest ih =>
    rw [insertMember]
    split
    · exact .refl _
    · exact (List.Perm.swap head member rest).trans (ih.cons head)

private theorem sortedItems_eq_map (items : List Json) : sortedItems items = items.map sorted := by
  induction items with
  | nil => rfl
  | cons item rest ih => rw [sortedItems, ih, List.map_cons]

private theorem perm_sortedMembers (members : List (String × Json)) :
    (members.map fun member => (member.1, member.2.sorted)).Perm (sortedMembers members) := by
  induction members with
  | nil => exact .refl _
  | cons member rest ih => exact (ih.cons _).trans (perm_insertMember _ _)

/-- Sorting changes nothing but the order of members. -/
theorem Proper.same_sorted {value : Json} (h : value.Proper) : value.Same value.sorted := by
  induction h with
  | null | bool | natural | number | string => exact .refl _
  | @array items _ ih =>
    rw [sorted, sortedItems_eq_map]
    refine .array (by rw [List.length_map]) ?_
    rw [← List.map_prod_left_eq_zip]
    intro pair member
    obtain ⟨item, found, rfl⟩ := List.mem_map.mp member
    exact ih item found
  | @object members distinct _ ih =>
    rw [sorted]
    refine .object distinct ?_ ?_ (perm_sortedMembers members)
    · rw [List.map_map]
      rfl
    · rw [← List.map_prod_left_eq_zip]
      intro pair found
      obtain ⟨member, listed, rfl⟩ := List.mem_map.mp found
      exact ih member listed

end Sorted

section Text

private theorem compactItems_eq_map (items : List Json) : compactItems items = items.map compact := by
  induction items with
  | nil => rfl
  | cons item rest ih => rw [compactItems, ih, List.map_cons]

private theorem compactMembers_eq_map (members : List (String × Json)) :
    compactMembers members = members.map fun member => quote member.1 ++ ":" ++ member.2.compact := by
  induction members with
  | nil => rfl
  | cons member rest ih => rw [compactMembers, ih, List.map_cons]

private theorem mem_joinCommas {c : Char} {comma : String} {texts : List String}
    (h : c ∈ (joinCommas comma texts).toList) : c ∈ comma.toList ∨ ∃ text ∈ texts, c ∈ text.toList := by
  induction texts with
  | nil => cases h
  | cons text rest ih =>
    cases rest with
    | nil => exact .inr ⟨text, List.mem_cons_self, h⟩
    | cons next rest =>
      have split : joinCommas comma (text :: next :: rest) = text ++ comma ++ joinCommas comma (next :: rest) := rfl
      rw [split, String.toList_append, String.toList_append, List.mem_append, List.mem_append] at h
      rcases h with (first | between) | later
      · exact .inr ⟨text, List.mem_cons_self, first⟩
      · exact .inl between
      · exact (ih later).imp_right fun ⟨other, listed, inside⟩ => ⟨other, List.mem_cons_of_mem _ listed, inside⟩

/-- A control character is written by its code. -/
private theorem zero_notMem_escape (c : Char) : '\x00' ∉ escape c := by
  have digits : ∀ n < 0x20, '\x00' ≠ Nat.digitChar (n / 16) ∧ '\x00' ≠ Nat.digitChar (n % 16) := by decide
  unfold escape
  split
  · next special =>
    rcases (by simpa using special) with rfl | rfl <;> decide
  iterate 5
    split
    · decide
  split
  · next control =>
    obtain ⟨high, low⟩ := digits c.toNat control
    simp [high, low]
  · next printable =>
    intro member
    rw [← List.mem_singleton.mp member] at printable
    exact printable (by decide)

private theorem zero_notMem_quote (text : String) : '\x00' ∉ (quote text).toList := by
  rw [quote, String.toList_ofList]
  have inside : '\x00' ∉ text.toList.flatMap escape := by
    intro member
    obtain ⟨c, -, escaped⟩ := List.mem_flatMap.mp member
    exact zero_notMem_escape c escaped
  simp [inside]

private theorem toList_toString (n : Nat) : (toString n).toList = Decimal.digits n := by
  rw [Decimal.digits_eq_toDigits]
  exact String.toList_ofList

private theorem zero_notMem_bracketed {opening closing : String} {texts : List String} (first : '\x00' ∉ opening.toList)
    (last : '\x00' ∉ closing.toList) (each : ∀ text ∈ texts, '\x00' ∉ text.toList) :
    '\x00' ∉ (opening ++ joinCommas "," texts ++ closing).toList := by
  have inside : '\x00' ∉ (joinCommas "," texts).toList := by
    intro member
    rcases mem_joinCommas member with comma | ⟨text, listed, written⟩
    · exact absurd comma (by decide)
    · exact each text listed written
  simp [first, last, inside]

/-- No value is written with a zero character, if it is not in the spelling of a number. -/
theorem Proper.zero_notMem_compact {value : Json} (h : value.Proper) : '\x00' ∉ value.compact.toList := by
  induction h with
  | null => decide
  | bool value => cases value <;> decide
  | natural value =>
    rw [compact, toList_toString]
    intro member
    exact absurd (Decimal.digits_subset value member) (by decide)
  | number free => exact free
  | string value => exact zero_notMem_quote value
  | array _ ih =>
    rw [compact, compactItems_eq_map]
    apply zero_notMem_bracketed (by decide) (by decide)
    intro text written
    obtain ⟨item, listed, rfl⟩ := List.mem_map.mp written
    exact ih item listed
  | object _ _ ih =>
    rw [compact, compactMembers_eq_map]
    apply zero_notMem_bracketed (by decide) (by decide)
    intro text written
    obtain ⟨member, listed, rfl⟩ := List.mem_map.mp written
    have value := ih member listed
    simpa [zero_notMem_quote] using value

end Text

end Json

section Exchange

open Json

theorem Span.proper_toJson (span : Span) : span.toJson.Proper := by
  refine .object (by simp) ?_
  simp only [List.forall_mem_cons]
  exact ⟨.natural _, .natural _, List.forall_mem_nil _⟩

/-- Keys that increase are distinct. -/
theorem Context.proper_toJson (context : Context) : context.toJson.Proper := by
  have distinct : (context.entries.map Prod.fst).Nodup := by
    refine (List.pairwise_map.mpr context.increasing).imp ?_
    rintro key _ less rfl
    exact String.lt_irrefl key less
  refine .object ?_ ?_
  · rw [List.map_map]
    exact distinct
  · intro member listed
    obtain ⟨entry, -, rfl⟩ := List.mem_map.mp listed
    exact .string entry.2

theorem Diagnostic.proper_toJson (diagnostic : Diagnostic) : diagnostic.toJson.Proper := by
  obtain ⟨id, severity, message, span, context⟩ := diagnostic
  refine .object ?_ ?_
  · cases span <;> cases context <;> simp [optionalMember]
  · intro member listed
    simp only [List.mem_append, List.mem_cons, List.not_mem_nil, or_false] at listed
    rcases listed with ((rfl | rfl | rfl) | place) | details
    · exact .string _
    · exact .string _
    · exact .string _
    · obtain ⟨span, -, rfl⟩ := List.mem_map.mp place
      exact span.proper_toJson
    · obtain ⟨context, -, rfl⟩ := List.mem_map.mp details
      exact context.proper_toJson

theorem Envelope.proper_toJson (envelope : Envelope) : envelope.toJson.Proper := by
  have listed (diagnostics : List Diagnostic) : (Json.array (diagnostics.map Diagnostic.toJson)).Proper := by
    refine .array fun item member => ?_
    obtain ⟨diagnostic, -, rfl⟩ := List.mem_map.mp member
    exact diagnostic.proper_toJson
  cases envelope with
  | converted output notes =>
    refine .object (by simp) ?_
    simp only [List.forall_mem_cons]
    exact ⟨.bool _, .string _, listed notes, List.forall_mem_nil _⟩
  | failed diagnostics =>
    refine .object (by simp) ?_
    simp only [List.forall_mem_cons]
    exact ⟨.bool _, listed diagnostics, List.forall_mem_nil _⟩

end Exchange

end BraceTemplate
