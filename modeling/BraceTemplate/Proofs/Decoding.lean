import BraceTemplate.Proofs.Agreement
import BraceTemplate.Proofs.Block

/-! Reading placeholders back. A text is read from the front as a placeholder and what follows exactly if it is that
placeholder in front of the rest, so that placeholders end where they say and are told apart by what they say. -/
namespace BraceTemplate

/-- The rendering that a character is the tag of. -/
def Destination.ofTag? (c : Char) : Option Destination := all.find? (·.tag == c.toString)

theorem Destination.ofTag?_eq_some_iff {c : Char} {destination : Destination} :
    ofTag? c = some destination ↔ destination.tag.toList = [c] := by
  constructor
  · intro h
    have same : destination.tag = c.toString := by simpa using List.find?_some h
    rw [same]
    exact String.toList_singleton c
  · intro h
    have same : c = destination.tag.toList.head! := by rw [h]; rfl
    rw [same]
    cases destination <;> rfl

namespace Block

/-- The number with exactly this numeral. -/
def number? (text : List Char) : Option UInt32 := do
  let n := Decimal.valueFrom 0 (← text.mapM Decimal.digit?)
  if n < UInt32.size ∧ Decimal.digits n = text then some (UInt32.ofNat n) else none

/-- The width with these digits. -/
def width? : List Char → Option (Option UInt32)
  | [] => some none
  | digits => (number? digits).map some

/-- The precision that is written with its dot. -/
def precision? : List Char → Option (Option UInt32)
  | [] => some none
  | '.' :: digits => (number? digits).map some
  | _ => none

/-- The alignment that a layout begins with, and what follows it. A zero is one only in front of its sign. -/
def splitAlignment : List Char → Option Alignment × List Char
  | '<' :: rest => (some .left, rest)
  | '0' :: '>' :: rest => (some .zeroFill, rest)
  | rest => (none, rest)

/-- The placeholder with this tag and layout. -/
def ofLayout? (tag : String) (layout : List Char) : Option Block := do
  let (alignment, numbers) := splitAlignment layout
  let width ← width? (numbers.takeWhile (· ≠ '.'))
  let precision ← precision? (numbers.dropWhile (· ≠ '.'))
  some ⟨tag, alignment, width, precision⟩

/-- The placeholder with this text between its braces. A colon has a layout behind it. -/
def ofInside? : List Char → Option Block
  | [] => none
  | c :: rest => do
    let destination ← Destination.ofTag? c
    match rest with
    | [] => ofLayout? destination.tag []
    | ':' :: layout => if layout = [] then none else ofLayout? destination.tag layout
    | _ => none

/-- The placeholder that a text begins with, and what follows it. -/
def read? : List Char → Option (Block × List Char)
  | '\x7b' :: rest =>
    match rest.dropWhile (· ≠ '\x7d') with
    | '\x7d' :: after => (ofInside? (rest.takeWhile (· ≠ '\x7d'))).map (·, after)
    | _ => none
  | _ => none

private theorem number?_eq_some_iff {text : List Char} {n : UInt32} :
    number? text = some n ↔ text = Decimal.digits32 n := by
  constructor
  · intro h
    obtain ⟨ds, -, read⟩ := Option.bind_eq_some_iff.mp h
    dsimp only at read
    split at read
    · next both =>
      rw [← Option.some.inj read, Decimal.digits32_ofNat both.1, both.2]
    · cases read
  · rintro rfl
    obtain ⟨ds, spelled, value, -⟩ := Decimal.exists_spell_digits n.toNat
    rw [Decimal.digits32_eq_digits, number?, spelled, Decimal.mapM_digit?_spell]
    simp [value, spelled, n.toNat_lt]

private theorem width?_eq_some_iff {text : List Char} {width : Option UInt32} :
    width? text = some width ↔ text = widthText width := by
  cases text with
  | nil => cases width with
    | none => exact ⟨fun _ => rfl, fun _ => rfl⟩
    | some n => simp [width?, widthText, (Decimal.digits32_ne_nil n).symm]
  | cons c rest => cases width with
    | none => simp [width?, widthText]
    | some n => simp [width?, widthText, number?_eq_some_iff]

private theorem precision?_eq_some_iff {text : List Char} {precision : Option UInt32} :
    precision? text = some precision ↔ text = precisionText precision := by
  unfold precision?
  split
  · cases precision <;> simp [precisionText]
  · next digits => cases precision <;> simp [precisionText, number?_eq_some_iff]
  · next empty other =>
    cases precision with
    | none => exact iff_of_false nofun empty
    | some n => simpa [precisionText] using other _

private theorem splitAlignment_append (alignment : Option Alignment) {rest : List Char} (left : '<' ∉ rest)
    (right : '>' ∉ rest) :
    splitAlignment (alignmentText alignment ++ rest) = (alignment, rest) := by
  rcases alignment with - | - | -
  · change splitAlignment rest = (none, rest)
    unfold splitAlignment
    split
    · simp at left
    · simp at right
    · rfl
  · rfl
  · rfl

private theorem append_of_splitAlignment {text rest : List Char} {alignment : Option Alignment}
    (h : splitAlignment text = (alignment, rest)) : text = alignmentText alignment ++ rest := by
  unfold splitAlignment at h
  split at h <;> cases h <;> rfl

/-- Alignment and width have no dot, and a precision begins with one. -/
private theorem splitAt_dot (width precision : Option UInt32) :
    (widthText width ++ precisionText precision).takeWhile (· ≠ '.') = widthText width ∧
      (widthText width ++ precisionText precision).dropWhile (· ≠ '.') = precisionText precision := by
  apply Text.splitAt_of_notMem
  · exact fun digit => absurd (widthText_subset _ digit) (by decide)
  · intro c first
    cases precision with
    | none => cases first
    | some precision => exact (Option.some.inj first).symm

/-- A layout has one reading: its sign stands in front of the numbers, and the width ends where the dot is. -/
theorem ofLayout?_eq_some_iff {tag : String} {layout : List Char} {block : Block} :
    ofLayout? tag layout = some block ↔ tag = block.tag ∧ layout = block.layout := by
  constructor
  · intro h
    obtain ⟨width, readWidth, h⟩ := Option.bind_eq_some_iff.mp h
    obtain ⟨precision, readPrecision, h⟩ := Option.bind_eq_some_iff.mp h
    obtain rfl := Option.some.inj h
    refine ⟨rfl, ?_⟩
    rw [Block.layout, ← width?_eq_some_iff.mp readWidth, ← precision?_eq_some_iff.mp readPrecision, List.append_assoc,
      List.takeWhile_append_dropWhile]
    exact append_of_splitAlignment rfl
  · rintro ⟨rfl, rfl⟩
    have numbers := numbers_subset block.width block.precision
    have signs := splitAlignment_append block.alignment (fun left => absurd (numbers left) (by decide))
      (fun right => absurd (numbers right) (by decide))
    obtain ⟨front, fraction⟩ := splitAt_dot block.width block.precision
    simp only [ofLayout?, Block.layout, List.append_assoc, signs, front, fraction, width?_eq_some_iff.mpr rfl,
      precision?_eq_some_iff.mpr rfl]
    rfl

private theorem ofInside?_eq_some_iff {inside : List Char} {block : Block} :
    ofInside? inside = some block ↔ block.Tagged ∧ inside = block.inside := by
  constructor
  · intro h
    cases inside with
    | nil => cases h
    | cons c rest =>
      obtain ⟨destination, found, h⟩ := Option.bind_eq_some_iff.mp h
      have tag := Destination.ofTag?_eq_some_iff.mp found
      split at h
      · obtain ⟨same, bare⟩ := ofLayout?_eq_some_iff.mp h
        exact ⟨⟨destination, same⟩, by rw [Block.inside, if_pos bare.symm, ← same, tag]; rfl⟩
      · split at h
        · cases h
        · next hne =>
          obtain ⟨same, rfl⟩ := ofLayout?_eq_some_iff.mp h
          exact ⟨⟨destination, same⟩, by rw [Block.inside, if_neg hne, ← same, tag]; rfl⟩
      · cases h
  · rintro ⟨⟨destination, tag⟩, rfl⟩
    obtain ⟨c, first⟩ := Tagged.exists_tag ⟨destination, tag⟩
    have found : Destination.ofTag? c = some destination := Destination.ofTag?_eq_some_iff.mpr (tag ▸ first)
    have read : ofLayout? destination.tag block.layout = some block := ofLayout?_eq_some_iff.mpr ⟨tag, rfl⟩
    by_cases bare : block.layout = []
    · rw [bare] at read
      rw [inside, first, if_pos bare, List.append_nil, ofInside?, found]
      exact read
    · rw [inside, first, if_neg bare, List.singleton_append, ofInside?, found]
      exact (if_neg bare).trans read

/-- A text is read as a placeholder and a rest exactly if it is the one in front of the other. -/
theorem read?_eq_some_iff {text rest : List Char} {block : Block} :
    read? text = some (block, rest) ↔ block.Tagged ∧ text = block.text ++ rest := by
  constructor
  · intro h
    unfold read? at h
    split at h
    · next inside =>
      split at h
      · next after behind =>
        obtain ⟨read, found, pair⟩ := Option.map_eq_some_iff.mp h
        obtain ⟨rfl, rfl⟩ := Prod.mk.inj pair
        obtain ⟨tagged, front⟩ := ofInside?_eq_some_iff.mp found
        refine ⟨tagged, ?_⟩
        rw [← List.takeWhile_append_dropWhile (p := (· ≠ '\x7d')) (l := inside), behind, front]
        simp [text]
      · cases h
    · cases h
  · rintro ⟨tagged, rfl⟩
    have closed : '\x7d' ∉ block.inside := fun member => absurd (tagged.inside_subset member) (by decide)
    have whole : block.text ++ rest = '\x7b' :: (block.inside ++ '\x7d' :: rest) := by simp [text]
    obtain ⟨front, back⟩ := Text.splitAt_of_notMem closed (r := '\x7d' :: rest) fun _ first => (Option.some.inj first).symm
    rw [whole, read?]
    simp only [front, back, ofInside?_eq_some_iff.mpr ⟨tagged, rfl⟩]
    rfl

/-- A text begins with at most one placeholder. -/
theorem append_inj {a b : Block} (ha : a.Tagged) (hb : b.Tagged) {r s : List Char}
    (h : a.text ++ r = b.text ++ s) : a = b ∧ r = s := by
  have first : read? (a.text ++ r) = some (a, r) := read?_eq_some_iff.mpr ⟨ha, rfl⟩
  have second : read? (a.text ++ r) = some (b, s) := read?_eq_some_iff.mpr ⟨hb, h⟩
  exact Prod.mk.inj (Option.some.inj (first.symm.trans second))

end Block

theorem Destination.tag_injective {a b : Destination} (h : a.tag = b.tag) : a = b := by
  revert h
  cases a <;> cases b <;> decide

namespace Placeholder

private theorem block_eq_iff {a b : Destination} {field other : Field} :
    block a field = block b other ↔
      a = b ∧ field.flags.alignment? = other.flags.alignment? ∧ field.width = other.width ∧
        field.precision = other.precision := by
  rw [block, block, Block.mk.injEq]
  exact and_congr_left' ⟨Destination.tag_injective, congrArg Destination.tag⟩

private theorem toList_text (destination : Destination) (field : Field) :
    (text destination field).toList = (block destination field).text := by
  rw [text_eq, output_chunks, String.toList_ofList]

private theorem attempt_write (destination : Destination) (field : Field) (sink : TextSink) :
    (write destination field).attempt sink = (.ok (), ⟨sink.text ++ text destination field⟩) := by
  rw [write_eq, Write.attempt, TextSink.unbounded.writeAll, text_eq]

end Placeholder

/-- A placeholder is always written, its braces are its first and its last character and no other, and a text is read
as what it says and a rest exactly if it is the placeholder in front of that rest. So no placeholder is the beginning
of another one, and two are the same exactly if destination, alignment, width and precision are. -/
theorem placeholders_are_decoded (destination : Destination) (field : Field) :
    (∀ sink : TextSink, (Placeholder.write destination field).attempt sink =
      (.ok (), ⟨sink.text ++ Placeholder.text destination field⟩)) ∧
    (∃ inside, (Placeholder.text destination field).toList = '\x7b' :: inside ++ ['\x7d'] ∧
      '\x7b' ∉ inside ∧ '\x7d' ∉ inside) ∧
    (∀ source rest, source = (Placeholder.text destination field).toList ++ rest ↔
      Block.read? source =
        some (⟨destination.tag, field.flags.alignment?, field.width, field.precision⟩, rest)) ∧
    ∀ other more,
      ((Placeholder.text destination field).toList <+: (Placeholder.text other more).toList →
        Placeholder.text destination field = Placeholder.text other more) ∧
      (Placeholder.text destination field = Placeholder.text other more ↔
        destination = other ∧ field.flags.alignment? = more.flags.alignment? ∧ field.width = more.width ∧
          field.precision = more.precision) := by
  have tagged := Placeholder.tagged_block destination field
  refine ⟨Placeholder.attempt_write destination field, ?_, ?_, fun other more => ⟨?_, ?_⟩⟩
  · rw [Placeholder.toList_text]
    refine ⟨_, rfl, ?_, ?_⟩ <;> exact fun brace => absurd (tagged.inside_subset brace) (by decide)
  · intro source rest
    rw [Placeholder.toList_text]
    exact (and_iff_right tagged).symm.trans Block.read?_eq_some_iff.symm
  · rintro ⟨rest, longer⟩
    rw [Placeholder.toList_text, Placeholder.toList_text, ← List.append_nil (Placeholder.block other more).text] at longer
    obtain ⟨same, -⟩ := Block.append_inj tagged (Placeholder.tagged_block other more) longer
    apply String.toList_inj.mp
    rw [Placeholder.toList_text, Placeholder.toList_text, same]
  · rw [← Placeholder.block_eq_iff, ← String.toList_inj, Placeholder.toList_text, Placeholder.toList_text]
    constructor
    · intro same
      exact (Block.append_inj tagged (Placeholder.tagged_block other more) (congrArg (· ++ []) same)).1
    · exact congrArg Block.text

end BraceTemplate
