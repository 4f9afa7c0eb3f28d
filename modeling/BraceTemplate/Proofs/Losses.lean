import BraceTemplate.Proofs.Notes
import Mathlib.Data.List.Forall2

/-! Losses of a conversion. The notes on a text correspond to what its specifiers lose, one note to each loss, and they
come in the order of the specifiers and, for one specifier, of the ranks of its losses. -/
namespace BraceTemplate

/-- Something that a specifier says and its placeholder does not. -/
inductive Loss where
  /-- The conversion, where the rendering is only close to it. -/
  | conversion (conversion : Conversion)
  | plus
  | space
  | hash
  | length (modifier : LengthModifier)
  deriving DecidableEq, Repr

namespace Loss

/-- The place of the loss among the losses of its specifier. -/
def rank : Loss → Nat
  | conversion _ => 0
  | plus => 1
  | space => 2
  | hash => 3
  | length _ => 4

/-- The key under which the loss is noted, and its spelling. -/
def entry : Loss → String × String
  | conversion lost => ("conversion", lost.char.toString)
  | plus => ("flag", "+")
  | space => ("flag", " ")
  | hash => ("flag", "#")
  | length modifier => ("length", modifier.text)

/-- The note says what the specifier loses, and where. -/
structure NotedBy (specifier : Specifier) (loss : Loss) (note : Diagnostic) : Prop where
  id : note.id = "FMT2001"
  severity : note.severity = .warning
  span : note.span = some specifier.span
  context : note.context.map Context.entries = some [loss.entry]

/-- The loss of an earlier specifier, or one of the same specifier with a smaller rank. -/
def Precedes (a b : Specifier × Loss) : Prop :=
  a.1.span.start < b.1.span.start ∨ a.1.span.start = b.1.span.start ∧ a.2.rank < b.2.rank

/-- The loss of a flag, unless it is kept. -/
def ofFlag? : Flag → Option Loss
  | .plus => some plus
  | .space => some space
  | .hash => some hash
  | .minus | .zero => none

private theorem ofFlag?_eq_some_iff {flag : Flag} {loss : Loss} :
    ofFlag? flag = some loss ↔ (flag, loss) ∈ [(Flag.plus, plus), (.space, space), (.hash, hash)] := by
  cases flag <;> simp [ofFlag?, eq_comm]

private theorem rank_eq_of_entry_eq {a b : Loss} (h : a.entry = b.entry) : a.rank = b.rank := by
  revert h
  cases a <;> cases b <;> simp [entry, rank]

/-- A note is about one place and one rank. -/
private theorem NotedBy.not_precedes {a b : Specifier × Loss} {note : Diagnostic} (ha : NotedBy a.1 a.2 note)
    (hb : NotedBy b.1 b.2 note) : ¬ Precedes a b := by
  have span : a.1.span = b.1.span := Option.some.inj (ha.span.symm.trans hb.span)
  have entry : [a.2.entry] = [b.2.entry] := Option.some.inj (ha.context.symm.trans hb.context)
  have rank := rank_eq_of_entry_eq (List.cons.inj entry).1
  rintro (earlier | ⟨-, smaller⟩)
  · rw [span] at earlier
    exact Nat.lt_irrefl _ earlier
  · rw [rank] at smaller
    exact Nat.lt_irrefl _ smaller

end Loss

private theorem Conversion.approximation?_isSome_iff {conversion : Conversion} :
    conversion.approximation?.isSome ↔ conversion.char ∈ "ugGaAEF".toList := by
  cases conversion <;> decide

namespace Specifier

/-- What the placeholder of a specifier does not say: a conversion that has none of its own, the flags but `-` and
`0`, and the length. -/
def Loses (specifier : Specifier) : Loss → Prop
  | .conversion lost => specifier.conversion = lost ∧ lost.char ∈ "ugGaAEF".toList
  | .plus => specifier.field.flags.contains .plus
  | .space => specifier.field.flags.contains .space
  | .hash => specifier.field.flags.contains .hash
  | .length modifier => specifier.field.length = some modifier

/-- What the specifier loses, in the order of the ranks. -/
def losses (specifier : Specifier) : List Loss :=
  (specifier.conversion.approximation?.toList.map fun _ => .conversion specifier.conversion)
    ++ specifier.field.flags.toList.filterMap Loss.ofFlag? ++ specifier.field.length.toList.map .length

private theorem mem_losses {specifier : Specifier} {loss : Loss} : loss ∈ specifier.losses ↔ specifier.Loses loss := by
  rw [losses, List.mem_append, List.mem_append, List.mem_filterMap, List.mem_map, List.mem_map]
  simp only [Loss.ofFlag?_eq_some_iff, FlagSet.mem_toList, Option.mem_toList]
  cases loss with
  | conversion lost =>
    constructor
    · rintro ((⟨effect, noted, same⟩ | ⟨flag, -, listed⟩) | ⟨modifier, -, same⟩)
      · cases same
        exact ⟨rfl, Conversion.approximation?_isSome_iff.mp (Option.isSome_of_mem noted)⟩
      · simp at listed
      · cases same
    · rintro ⟨rfl, approximated⟩
      obtain ⟨effect, noted⟩ :=
        Option.isSome_iff_exists.mp (Conversion.approximation?_isSome_iff.mpr approximated)
      exact .inl (.inl ⟨effect, noted, rfl⟩)
  | plus | space | hash => simp [Loses]
  | length modifier => simp [Loses]

/-- The losses are in the order of their ranks, whichever of them there are. -/
private theorem losses_increasing (specifier : Specifier) : specifier.losses.Pairwise fun a b => a.rank < b.rank := by
  have all : ([Loss.conversion specifier.conversion] ++ [Loss.plus, .space, .hash]
      ++ specifier.field.length.toList.map Loss.length).Pairwise fun a b => a.rank < b.rank := by
    cases specifier.field.length <;> simp [Loss.rank]
  refine all.sublist ((List.Sublist.append ?_ ?_).append (.refl _))
  · cases specifier.conversion.approximation? with
    | none => exact List.nil_sublist _
    | some loss => exact .refl _
  · exact List.filter_sublist.filterMap Loss.ofFlag?

private theorem forall₂_losses_notes (specifier : Specifier) :
    List.Forall₂ (Loss.NotedBy specifier) specifier.losses specifier.notes := by
  refine List.rel_append (List.rel_append ?_ ?_) ?_
  · rw [conversionNotes, List.forall₂_map_left_iff, List.forall₂_map_right_iff, List.forall₂_same]
    exact fun _ _ => ⟨rfl, rfl, rfl, rfl⟩
  · unfold flagNotes
    induction specifier.field.flags.toList with
    | nil => exact .nil
    | cons flag flags ih =>
      cases flag with
      | minus | zero => exact ih
      | plus | space | hash => exact .cons ⟨rfl, rfl, rfl, rfl⟩ ih
  · rw [lengthNotes, List.forall₂_map_left_iff, List.forall₂_map_right_iff, List.forall₂_same]
    exact fun _ _ => ⟨rfl, rfl, rfl, rfl⟩

end Specifier

namespace Segment

private theorem mem_specifiers {segments : List Segment} {found : Specifier} :
    found ∈ specifiers segments ↔ specifier found ∈ segments := by
  rw [specifiers, List.mem_filterMap]
  constructor
  · rintro ⟨segment, member, same⟩
    cases segment <;> cases same
    exact member
  · exact fun member => ⟨_, member, rfl⟩

/-- The losses of the specifiers of a text, in order. -/
def losses (segments : List Segment) : List (Specifier × Loss) :=
  (specifiers segments).flatMap fun found => found.losses.map (found, ·)

private theorem mem_losses {segments : List Segment} {found : Specifier} {loss : Loss} :
    (found, loss) ∈ losses segments ↔ specifier found ∈ segments ∧ found.Loses loss := by
  rw [losses, List.mem_flatMap, ← mem_specifiers, ← Specifier.mem_losses]
  constructor
  · rintro ⟨other, member, listed⟩
    obtain ⟨_, lost, same⟩ := List.mem_map.mp listed
    cases same
    exact ⟨member, lost⟩
  · rintro ⟨member, lost⟩
    exact ⟨found, member, List.mem_map_of_mem lost⟩

private theorem forall₂_losses_notes (segments : List Segment) :
    List.Forall₂ (fun lost note => Loss.NotedBy lost.1 lost.2 note) (losses segments) (segments.flatMap notes) := by
  rw [flatMap_notes, losses]
  induction specifiers segments with
  | nil => exact .nil
  | cons found rest ih =>
    rw [List.flatMap_cons, List.flatMap_cons]
    apply List.rel_append _ ih
    exact List.forall₂_map_left_iff.mpr found.forall₂_losses_notes

/-- Every specifier begins behind the one before it. -/
private theorem specifiers_ofItems_increasing (offset : Nat) (run : List Char) (items : List Item) :
    (∀ found ∈ specifiers (ofItems offset run items), offset ≤ found.span.start) ∧
      (specifiers (ofItems offset run items)).Pairwise fun a b => a.span.start < b.span.start := by
  induction items generalizing offset run with
  | nil =>
    rw [ofItems, specifiers_ofRun]
    exact ⟨List.forall_mem_nil _, .nil⟩
  | cons item items ih =>
    cases item with
    | literal c =>
      obtain ⟨behind, increasing⟩ := ih (offset + c.utf8Size) (run ++ [c])
      exact ⟨fun found member => Nat.le_of_add_right_le (behind found member), increasing⟩
    | percent =>
      obtain ⟨behind, increasing⟩ := ih (offset + 2) []
      rw [ofItems, specifiers_ofRun_append]
      exact ⟨fun found member => Nat.le_of_add_right_le (behind found member), increasing⟩
    | clause clause =>
      obtain ⟨behind, increasing⟩ := ih (offset + Text.byteCount clause.text) []
      have wide : 0 < Text.byteCount clause.text := Text.byteCount_pos (Item.clause clause).text_ne_nil
      rw [ofItems, specifiers_ofRun_append]
      refine ⟨?_, .cons ?_ increasing⟩
      · exact List.forall_mem_cons.mpr
          ⟨Nat.le_refl offset, fun found member => Nat.le_of_add_right_le (behind found member)⟩
      · intro found member
        exact Nat.lt_of_lt_of_le (Nat.lt_add_of_pos_right wide) (behind found member)

private theorem losses_increasing {segments : List Segment}
    (h : (specifiers segments).Pairwise fun a b => a.span.start < b.span.start) :
    (losses segments).Pairwise Loss.Precedes := by
  refine List.pairwise_flatMap.mpr ⟨?_, h.imp ?_⟩
  · intro found _
    exact List.pairwise_map.mpr (found.losses_increasing.imp fun smaller => .inr ⟨rfl, smaller⟩)
  · intro a b earlier x hx y hy
    obtain ⟨_, -, rfl⟩ := List.mem_map.mp hx
    obtain ⟨_, -, rfl⟩ := List.mem_map.mp hy
    exact .inl earlier

end Segment

namespace Loss

variable {losses : List (Specifier × Loss)} {notes : List Diagnostic}

private theorem exists_notedBy (noted : List.Forall₂ (fun lost note => NotedBy lost.1 lost.2 note) losses notes)
    {note : Diagnostic} (member : note ∈ notes) : ∃ lost ∈ losses, NotedBy lost.1 lost.2 note := by
  induction noted with
  | nil => cases member
  | cons first _ ih =>
    rcases List.mem_cons.mp member with rfl | later
    · exact ⟨_, List.mem_cons_self, first⟩
    · obtain ⟨lost, listed, same⟩ := ih later
      exact ⟨lost, List.mem_cons_of_mem _ listed, same⟩

/-- Notes on losses that precede each other are different. -/
theorem nodup_notes (noted : List.Forall₂ (fun lost note => NotedBy lost.1 lost.2 note) losses notes)
    (increasing : losses.Pairwise Precedes) : notes.Nodup := by
  induction noted with
  | nil => exact .nil
  | cons first rest ih =>
    obtain ⟨earlier, increasing⟩ := List.pairwise_cons.mp increasing
    refine List.nodup_cons.mpr ⟨fun again => ?_, ih increasing⟩
    obtain ⟨other, later, same⟩ := exists_notedBy rest again
    exact first.not_precedes same (earlier other later)

end Loss

/-- Every note on a converted text is about one loss of one of its specifiers, every loss is noted once, and the notes
are strictly ordered by where the specifier starts and the rank of the loss. -/
theorem notes_are_losses (source out : String) (h : convert source = .ok out) :
    ∃ segments notes losses, scan source = .ok segments ∧ lint source = .ok notes ∧
      List.Forall₂ (fun lost note => Loss.NotedBy lost.1 lost.2 note) losses notes ∧
      (∀ specifier loss, (specifier, loss) ∈ losses ↔ .specifier specifier ∈ segments ∧ specifier.Loses loss) ∧
      losses.Pairwise Loss.Precedes ∧ notes.Nodup := by
  obtain ⟨items, spell, -⟩ := exists_spell_of_convert h
  have noted := Segment.forall₂_losses_notes (Segment.ofItems 0 [] items)
  have increasing := Segment.losses_increasing (Segment.specifiers_ofItems_increasing 0 [] items).2
  exact ⟨_, _, _, spell.scan, spell.lint, noted, fun _ _ => Segment.mem_losses, increasing,
    Loss.nodup_notes noted increasing⟩

/-- The flags are noted in their canonical order, and a doubled length letter is one loss. -/
theorem notes_are_losses_of_disordered_flags :
    ∃ segments notes losses, scan "%#+u, %hhd" = .ok segments ∧ lint "%#+u, %hhd" = .ok notes ∧
      List.Forall₂ (fun lost note => Loss.NotedBy lost.1 lost.2 note) losses notes ∧
      (∀ specifier loss, (specifier, loss) ∈ losses ↔ .specifier specifier ∈ segments ∧ specifier.Loses loss) ∧
      losses.Pairwise Loss.Precedes ∧ notes.Nodup :=
  notes_are_losses "%#+u, %hhd" "\x7bd\x7d, \x7bd\x7d" (by decide +kernel)

example : (scan "%#+u, %hhd").map (fun segments => (Segment.losses segments).map Prod.snd) =
    .ok [.conversion .unsigned, .plus, .hash, .length .char] := by decide +kernel

end BraceTemplate
