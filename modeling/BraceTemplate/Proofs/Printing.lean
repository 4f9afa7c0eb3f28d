import BraceTemplate.Proofs.Segments
import Mathlib.Data.List.Chain

/-! Printing of parsed formats. A format is a list of parts that are given by what they mean, and splitting
a text into segments is the exact inverse of printing such a list. -/
namespace BraceTemplate

/-- A specifier given by its values. Flags are printed in the order in which they are listed, and the
precision is printed behind as many zeros as its first component says. -/
structure Directive where
  flags : List Flag
  width : Option UInt32
  precision : Option (Nat × UInt32)
  length : Option LengthModifier
  conversion : Conversion
  deriving DecidableEq, Repr

namespace Directive

/-- The directives that can be printed: no flag is listed twice, and a width is at least one. -/
structure Valid (directive : Directive) : Prop where
  flags_nodup : directive.flags.Nodup
  width_ne_zero : directive.width ≠ some 0

def widthText (width : Option UInt32) : List Char :=
  width.elim [] fun width => Nat.toDigits 10 width.toNat

def precisionText : Option (Nat × UInt32) → List Char
  | none => []
  | some (zeros, value) => '.' :: List.replicate zeros '0' ++ Nat.toDigits 10 value.toNat

def text (directive : Directive) : List Char :=
  '%' :: directive.flags.map Flag.char ++ widthText directive.width ++ precisionText directive.precision
    ++ directive.length.elim [] (·.text.toList) ++ [directive.conversion.char]

def field (directive : Directive) : Field :=
  ⟨.ofList directive.flags, directive.width, directive.precision.map Prod.snd, directive.length⟩

/-- Directives that say the same differ in the order of their flags and in zeros at most. -/
theorem field_eq_iff {a b : Directive} (ha : a.Valid) (hb : b.Valid) :
    a.field = b.field ↔
      a.flags.Perm b.flags ∧ a.width = b.width ∧
        a.precision.map Prod.snd = b.precision.map Prod.snd ∧ a.length = b.length := by
  have flags : FlagSet.ofList a.flags = FlagSet.ofList b.flags ↔ a.flags.Perm b.flags := by
    rw [List.perm_ext_iff_of_nodup ha.flags_nodup hb.flags_nodup]
    constructor
    · intro same flag
      have member := congrArg (FlagSet.contains · flag) same
      simpa using member
    · intro same
      apply FlagSet.ext_contains
      intro flag
      simp [same flag]
  rw [← flags, field, field, Field.mk.injEq]

/-- The clause is a spelling of the directive. -/
structure SpelledBy (directive : Directive) (clause : Clause) : Prop where
  text : clause.text = directive.text
  field : clause.field = directive.field
  conversion : clause.conversion = directive.conversion

/-- A width of at least one is spelled by digits that do not begin with zero. -/
private theorem exists_width_digits {width : Option UInt32} (h : width ≠ some 0) :
    ∃ ds : List (Fin 10), ds.head? ≠ some 0 ∧ Decimal.valueFrom 0 ds < UInt32.size ∧
      Decimal.spell ds = widthText width ∧ Stem.number? ds = width := by
  cases width with
  | none => exact ⟨[], by simp, by decide, rfl, rfl⟩
  | some width =>
    have positive : width.toNat ≠ 0 := by
      intro zero
      apply h
      rw [UInt32.toNat_inj.mp (zero.trans UInt32.toNat_zero.symm)]
    obtain ⟨ds, spelled, value, head⟩ := Decimal.exists_spell_digits width.toNat
    have hne : ds ≠ [] := by
      intro empty
      rw [empty] at value
      exact positive value.symm
    refine ⟨ds, head positive, value ▸ width.toNat_lt, ?_, ?_⟩
    · rw [← spelled, Decimal.digits_eq_toDigits]
      rfl
    · rw [Stem.number?, value, UInt32.ofNat_toNat, if_neg (by simpa using hne)]

private theorem exists_width {ds : List (Fin 10)} (head : ds.head? ≠ some 0)
    (small : Decimal.valueFrom 0 ds < UInt32.size) :
    ∃ width : Option UInt32, width ≠ some 0 ∧ Decimal.spell ds = widthText width ∧ Stem.number? ds = width := by
  by_cases empty : ds = []
  · subst empty
    exact ⟨none, by simp, rfl, rfl⟩
  · have held := UInt32.toNat_ofNat_of_lt' small
    refine ⟨some (UInt32.ofNat (Decimal.valueFrom 0 ds)), ?_, ?_, if_neg (by simpa using empty)⟩
    · intro zero
      have positive := Decimal.valueFrom_pos empty head
      rw [Option.some.inj zero] at held
      exact Nat.lt_irrefl 0 (Nat.lt_of_lt_of_eq positive held.symm)
    · rw [widthText, Option.elim_some, held, ← Decimal.digits_eq_toDigits, Decimal.digits_valueFrom empty head]

private theorem exists_precision_digits (precision : Option (Nat × UInt32)) :
    ∃ digits : Option (List (Fin 10)), digits ≠ some [] ∧
      (∀ ds ∈ digits, Decimal.valueFrom 0 ds < UInt32.size) ∧
      digits.elim [] (fun ds => '.' :: Decimal.spell ds) = precisionText precision ∧
      digits.map (fun ds => UInt32.ofNat (Decimal.valueFrom 0 ds)) = precision.map Prod.snd := by
  cases precision with
  | none => exact ⟨none, by simp, by simp, rfl, rfl⟩
  | some printed =>
    obtain ⟨zeros, precision⟩ := printed
    obtain ⟨ds, spelled, value, -⟩ := Decimal.exists_spell_digits precision.toNat
    rw [Decimal.digits_eq_toDigits] at spelled
    have hne : ds ≠ [] := by
      intro empty
      rw [empty] at spelled
      exact Nat.toDigits_ne_nil spelled
    have whole : Decimal.valueFrom 0 (List.replicate zeros 0 ++ ds) = precision.toNat := by
      rw [Decimal.valueFrom_replicate_zero, value]
    refine ⟨some (List.replicate zeros 0 ++ ds), by simp [hne], ?_, ?_, ?_⟩
    · simpa [whole] using precision.toNat_lt
    · simp [precisionText, Decimal.spell_replicate_zero, spelled]
    · simp [whole]

private theorem exists_precision {digits : Option (List (Fin 10))} (digit : digits ≠ some [])
    (small : ∀ ds ∈ digits, Decimal.valueFrom 0 ds < UInt32.size) :
    ∃ precision : Option (Nat × UInt32),
      digits.elim [] (fun ds => '.' :: Decimal.spell ds) = precisionText precision ∧
      digits.map (fun ds => UInt32.ofNat (Decimal.valueFrom 0 ds)) = precision.map Prod.snd := by
  cases digits with
  | none => exact ⟨none, rfl, rfl⟩
  | some ds =>
    have hne : ds ≠ [] := fun empty => digit (by rw [empty])
    obtain ⟨zeros, spelled⟩ := Decimal.exists_zeros hne
    refine ⟨some (zeros, UInt32.ofNat (Decimal.valueFrom 0 ds)), ?_, rfl⟩
    rw [Option.elim_some, precisionText, UInt32.toNat_ofNat_of_lt' (small ds rfl), spelled,
      Decimal.digits_eq_toDigits]
    rfl

/-- Every valid directive is spelled by a clause of the grammar. -/
theorem Valid.exists_clause {directive : Directive} (h : directive.Valid) :
    ∃ clause : Clause, clause.Legal ∧ directive.SpelledBy clause := by
  obtain ⟨flags, width, precision, length, conversion⟩ := directive
  obtain ⟨digits, head, small, spelled, number⟩ := exists_width_digits h.width_ne_zero
  obtain ⟨fraction, digit, fits, written, value⟩ := exists_precision_digits precision
  refine ⟨⟨flags, digits, fraction, length, conversion⟩, ⟨h.flags_nodup, head, small, digit, fits⟩, ?_, ?_, rfl⟩
  · rw [text, ← spelled, ← written]
    rfl
  · rw [field, ← number, ← value]
    rfl

/-- Every clause of the grammar spells a valid directive. -/
private theorem exists_spelledBy {clause : Clause} (h : clause.Legal) :
    ∃ directive : Directive, directive.Valid ∧ directive.SpelledBy clause := by
  obtain ⟨flags, digits, fraction, length, conversion⟩ := clause
  obtain ⟨width, positive, spelled, number⟩ := exists_width h.width_head h.width_lt
  obtain ⟨precision, written, value⟩ := exists_precision h.precision_ne_nil h.precision_lt
  refine ⟨⟨flags, width, precision, length, conversion⟩, ⟨h.flags_nodup, positive⟩, ?_, ?_, rfl⟩
  · rw [text, ← spelled, ← written]
    rfl
  · rw [field, ← number, ← value]
    rfl

end Directive

/-- A part of a format as it is printed. -/
inductive Part where
  | literal (run : List Char)
  /-- An escaped percent sign. -/
  | percent
  | directive (directive : Directive)
  deriving DecidableEq, Repr

namespace Part

def text : Part → List Char
  | literal run => run
  | percent => ['%', '%']
  | directive printed => printed.text

def isLiteral : Part → Bool
  | literal _ => true
  | percent | directive _ => false

/-- The parts that can be printed. A literal run is not empty and has no percent sign. -/
def Valid : Part → Prop
  | literal run => run ≠ [] ∧ '%' ∉ run
  | percent => True
  | directive printed => printed.Valid

/-- The text of parts that are printed one after the other. -/
def print (parts : List Part) : String := String.ofList (parts.flatMap text)

/-- What the part means where it is printed from byte `start` on. -/
def segment (start : Nat) : Part → Segment
  | literal run => .literal (String.ofList run) ⟨start, start + Text.byteCount run⟩
  | percent => .percent ⟨start, start + 2⟩
  | directive printed =>
    .specifier ⟨printed.field, printed.conversion, ⟨start, start + Text.byteCount printed.text⟩⟩

/-- The meanings of parts that are printed one after the other, the first one from byte `start` on. -/
def segments (start : Nat) : List Part → List Segment
  | [] => []
  | part :: rest => part.segment start :: segments (start + Text.byteCount part.text) rest

/-- The parts of a literal run, which may be empty. -/
def ofRun (run : List Char) : List Part := if run = [] then [] else [literal run]

private theorem flatMap_text_ofRun (run : List Char) : (ofRun run).flatMap text = run := by
  unfold ofRun
  split
  · next empty => rw [empty]; rfl
  · simp [text]

private theorem segments_ofRun_append (run : List Char) (start : Nat) (parts : List Part) :
    segments start (ofRun run ++ parts) =
      Segment.ofRun run (start + Text.byteCount run) ++ segments (start + Text.byteCount run) parts := by
  unfold ofRun Segment.ofRun
  by_cases empty : run = []
  · simp [empty, Text.byteCount]
  · simp [empty, segments, segment, text]

end Part

/-- The parsed formats: valid parts, with no two literal runs next to each other. -/
structure Printable (parts : List Part) : Prop where
  valid : ∀ part ∈ parts, part.Valid
  apart : parts.IsChain fun a b => ¬ (a.isLiteral ∧ b.isLiteral)

namespace Printable

theorem nil : Printable [] := ⟨by simp, .nil⟩

theorem of_cons {part : Part} {parts : List Part} (h : Printable (part :: parts)) :
    part.Valid ∧ (∀ next ∈ parts.head?, ¬ (part.isLiteral ∧ next.isLiteral)) ∧ Printable parts := by
  obtain ⟨apart, rest⟩ := List.isChain_cons.mp h.apart
  exact ⟨h.valid part (by simp), apart, fun other hm => h.valid other (by simp [hm]), rest⟩

theorem cons {part : Part} {parts : List Part} (h : Printable parts) (valid : part.Valid)
    (apart : ∀ next ∈ parts.head?, ¬ (part.isLiteral ∧ next.isLiteral)) : Printable (part :: parts) :=
  ⟨by simpa using ⟨valid, h.valid⟩, List.isChain_cons.mpr ⟨apart, h.apart⟩⟩

/-- A run may stand before everything but another one. -/
private theorem run_append {parts : List Part} (h : Printable parts) (apart : ∀ next ∈ parts.head?, ¬ next.isLiteral)
    {run : List Char} (free : '%' ∉ run) : Printable (Part.ofRun run ++ parts) := by
  unfold Part.ofRun
  split
  · exact h
  · next hne => exact h.cons ⟨hne, free⟩ fun next head both => apart next head both.2

end Printable

private theorem Segment.ofItems_literals (offset : Nat) (run text : List Char) (items : List Item) :
    ofItems offset run (text.map .literal ++ items) =
      ofItems (offset + Text.byteCount text) (run ++ text) items := by
  induction text generalizing offset run with
  | nil => simp [Text.byteCount]
  | cons c text ih =>
    rw [List.map_cons, List.cons_append, ofItems, ih, Text.byteCount, Nat.add_assoc, List.append_assoc,
      List.singleton_append]

private theorem Item.flatMap_text_literals (text : List Char) : (text.map Item.literal).flatMap Item.text = text := by
  simp [List.flatMap_map, Item.text]

/-- The items of parts. They give the segments of the parts, behind a literal run too where the parts do
not go on with another one. -/
private theorem Printable.exists_items_behind {parts : List Part} (h : Printable parts) :
    ∃ items : List Item, (∀ item ∈ items, item.Legal) ∧
      items.flatMap Item.text = parts.flatMap Part.text ∧
      ∀ start run, (run ≠ [] → ∀ part ∈ parts.head?, ¬ part.isLiteral) →
        Segment.ofItems start run items = Segment.ofRun run start ++ Part.segments start parts := by
  induction parts with
  | nil => exact ⟨[], by simp, rfl, fun start run _ => by rw [Segment.ofItems, Part.segments, List.append_nil]⟩
  | cons part parts ih =>
    obtain ⟨valid, apart, rest⟩ := h.of_cons
    obtain ⟨items, legal, spelled, located⟩ := ih rest
    cases part with
    | literal text =>
      refine ⟨text.map .literal ++ items, ?_, ?_, ?_⟩
      · intro item member
        rcases List.mem_append.mp member with first | later
        · obtain ⟨c, hc, rfl⟩ := List.mem_map.mp first
          exact ne_of_mem_of_not_mem hc valid.2
        · exact legal item later
      · rw [List.flatMap_append, Item.flatMap_text_literals, spelled, List.flatMap_cons, Part.text]
      · intro start run alone
        -- A run begins here, so none stands before it, and none follows.
        have empty : run = [] := by
          apply Classical.byContradiction
          intro hne
          exact alone hne (.literal text) rfl rfl
        have behind (next : Part) (head : next ∈ parts.head?) : ¬ next.isLiteral :=
          fun both => apart next head ⟨rfl, both⟩
        rw [empty, Segment.ofItems_literals, List.nil_append, located _ _ fun _ => behind]
        simp [Segment.ofRun, valid.1, Part.segments, Part.segment, Part.text]
    | percent =>
      refine ⟨.percent :: items, by simpa [Item.Legal] using legal, ?_, ?_⟩
      · rw [List.flatMap_cons, List.flatMap_cons, spelled]
        rfl
      · intro start run _
        rw [Segment.ofItems, located _ [] (fun hne => absurd rfl hne)]
        rfl
    | directive printed =>
      obtain ⟨clause, clause_legal, text, field, conversion⟩ := Directive.Valid.exists_clause valid
      refine ⟨.clause clause :: items, by simpa [Item.Legal] using ⟨clause_legal, legal⟩, ?_, ?_⟩
      · rw [List.flatMap_cons, List.flatMap_cons, spelled, Item.text, text]
        rfl
      · intro start run _
        rw [Segment.ofItems, located _ [] (fun hne => absurd rfl hne), field, conversion, text]
        rfl

private theorem Printable.exists_items {parts : List Part} (h : Printable parts) :
    ∃ items : List Item, (∀ item ∈ items, item.Legal) ∧
      items.flatMap Item.text = parts.flatMap Part.text ∧
      Segment.ofItems 0 [] items = Part.segments 0 parts := by
  obtain ⟨items, legal, spelled, located⟩ := h.exists_items_behind
  exact ⟨items, legal, spelled, located 0 [] fun hne => absurd rfl hne⟩

/-- The parts of items, where the text before ends in the literal run `run`. -/
theorem Item.exists_parts {items : List Item} (h : ∀ item ∈ items, item.Legal) {run : List Char}
    (free : '%' ∉ run) :
    ∃ parts : List Part, Printable parts ∧ parts.flatMap Part.text = run ++ items.flatMap Item.text ∧
      ∀ start, Part.segments start parts = Segment.ofItems (start + Text.byteCount run) run items := by
  induction items generalizing run with
  | nil =>
    refine ⟨Part.ofRun run, ?_, by simp [Part.flatMap_text_ofRun], ?_⟩
    · simpa using Printable.nil.run_append (by simp) free
    · intro start
      rw [← List.append_nil (Part.ofRun run), Part.segments_ofRun_append, Segment.ofItems, Part.segments,
        List.append_nil]
  | cons item items ih =>
    have first := h item (by simp)
    have rest := fun other hm => h other (List.mem_cons_of_mem item hm)
    have fresh : '%' ∉ [] := List.not_mem_nil
    cases item with
    | literal c =>
      -- The run goes on, and becomes a part where it ends.
      have longer : '%' ∉ run ++ [c] := by simp [free, Ne.symm first]
      obtain ⟨parts, printable, spelled, located⟩ := ih rest longer
      refine ⟨parts, printable, by simp [spelled, Item.text], ?_⟩
      intro start
      rw [located, Text.byteCount_append, Text.byteCount_singleton, ← Nat.add_assoc]
      rfl
    | percent =>
      obtain ⟨parts, printable, spelled, located⟩ := ih rest fresh
      have marked : Printable (.percent :: parts) := printable.cons trivial (by simp [Part.isLiteral])
      refine ⟨Part.ofRun run ++ .percent :: parts, marked.run_append (by simp [Part.isLiteral]) free, ?_, ?_⟩
      · simp [Part.flatMap_text_ofRun, spelled, Part.text, Item.text]
      · intro start
        rw [Part.segments_ofRun_append, Part.segments, located]
        rfl
    | clause clause =>
      obtain ⟨printed, valid, text, field, conversion⟩ := Directive.exists_spelledBy first
      obtain ⟨parts, printable, spelled, located⟩ := ih rest fresh
      have marked : Printable (.directive printed :: parts) :=
        printable.cons valid (by simp [Part.isLiteral])
      refine ⟨Part.ofRun run ++ .directive printed :: parts,
        marked.run_append (by simp [Part.isLiteral]) free, ?_, ?_⟩
      · simp [Part.flatMap_text_ofRun, spelled, Part.text, Item.text, text]
      · intro start
        rw [Part.segments_ofRun_append, Part.segments, located, Segment.ofItems, field, conversion, text]
        rfl

/-- A text is split into segments exactly if it is the print of a parsed format, and then these are the
parts of that format, in order and where they stand in the text. What a specifier says leaves nothing
open but the order of the flags and the zeros in front of the precision. -/
theorem scan_eq_ok_iff_print (source : String) (segments : List Segment) :
    (scan source = .ok segments ↔
      ∃ parts, Printable parts ∧ Part.print parts = source ∧ Part.segments 0 parts = segments) ∧
    ∀ a b : Directive, a.Valid → b.Valid →
      (a.field = b.field ↔
        a.flags.Perm b.flags ∧ a.width = b.width ∧
          a.precision.map Prod.snd = b.precision.map Prod.snd ∧ a.length = b.length) := by
  refine ⟨⟨?_, ?_⟩, fun _ _ => Directive.field_eq_iff⟩
  · intro ok
    obtain ⟨items, spell, rfl⟩ := scan_eq_ok_iff.mp ok
    obtain ⟨parts, printable, spelled, located⟩ := Item.exists_parts spell.legal List.not_mem_nil
    refine ⟨parts, printable, ?_, located 0⟩
    rw [Part.print, spelled, List.nil_append, ← spell.spelled, String.ofList_toList]
  · rintro ⟨parts, printable, rfl, rfl⟩
    obtain ⟨items, legal, spelled, located⟩ := printable.exists_items
    have spell : Item.Spell items (Part.print parts) :=
      ⟨legal, by rw [Part.print, String.toList_ofList, spelled]⟩
    exact scan_eq_ok_iff.mpr ⟨items, spell, located⟩

example : Part.print [.literal ['a'], .directive ⟨[.zero, .minus], some 12, some (2, 5), some .longLong, .hex⟩,
    .percent] = "a%0-12.005llx%%" := by decide

end BraceTemplate
