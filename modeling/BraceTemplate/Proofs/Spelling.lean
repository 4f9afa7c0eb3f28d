import BraceTemplate.Proofs.Stem

/-! Format texts as sequences of items. Spellings are uniquely decodable: no clause is the beginning
of another, and what has been read of a clause determines its stem. -/
namespace BraceTemplate

namespace Stem

/-- How a character of each class continues the stem, if it does so at all. A zero behind the flags
is a flag. -/
def grown (stem : Stem) : Symbol → Stem
  | .flag flag => { stem with flags := stem.flags ++ [flag] }
  | .digit d =>
    match stem.precision with
    | some digits => { stem with precision := some (digits ++ [d]) }
    | none =>
      if stem.width = [] ∧ d = 0 then { stem with flags := stem.flags ++ [.zero] }
      else { stem with width := stem.width ++ [d] }
  | .dot => { stem with precision := some [] }
  | .length modifier =>
    { stem with length := stem.length.elim (some modifier) (·.join? modifier) }
  | _ => stem

private theorem Grows.eq_grown {stem next : Stem} {c : Char} (h : Grows stem c next) :
    next = stem.grown (Symbol.ofChar c) := by
  cases h with
  | @flag flags flag =>
    rw [Symbol.ofChar_flagChar]
    split
    · next zero => simp [grown, zero]
    · rfl
  | width head =>
    rw [Symbol.ofChar_digitChar]
    exact (if_neg fun both => head both.1 both.2).symm
  | dot => rfl
  | precision => rw [Symbol.ofChar_digitChar, grown]
  | length _ letter => rw [Symbol.ofChar_of_length letter]; rfl
  | double letter join => rw [Symbol.ofChar_of_length letter, grown, Option.elim_some, join]

theorem Grows.unique {stem a b : Stem} {c : Char} (ha : Grows stem c a) (hb : Grows stem c b) : a = b :=
  ha.eq_grown.trans hb.eq_grown.symm

/-- A stem does not grow by what finishes a clause or opens another one. -/
theorem Grows.symbol_ne {stem next : Stem} {c : Char} (h : Grows stem c next) :
    Symbol.ofChar c ≠ .percent ∧ ∀ conversion, Symbol.ofChar c ≠ .conversion conversion := by
  cases h with
  | flag =>
    rw [Symbol.ofChar_flagChar]
    split <;> simp
  | dot => simp
  | width | precision => simp
  | length _ letter | double letter => simp [Symbol.ofChar_of_length letter]

/-- A clause has no percent sign but the one that opens it. -/
theorem Reads.percent_notMem {stem last : Stem} {text : List Char} (h : Reads stem text last) :
    '%' ∉ text := by
  induction h with
  | refl => exact List.not_mem_nil
  | cons grows _ ih =>
    intro member
    rcases List.mem_cons.mp member with rfl | later
    · exact grows.symbol_ne.1 Symbol.ofChar_percent
    · exact ih later

theorem Reads.unique {stem a b : Stem} {text : List Char} (ha : Reads stem text a)
    (hb : Reads stem text b) : a = b := by
  induction ha with
  | refl => cases hb with | refl => rfl
  | cons first _ ih =>
    cases hb with
    | cons other reads => exact ih (first.unique other ▸ reads)

private theorem Reads.append_inv {stem last : Stem} {front back : List Char}
    (h : Reads stem (front ++ back) last) : ∃ middle, Reads stem front middle ∧ Reads middle back last := by
  induction front generalizing stem with
  | nil => exact ⟨stem, .refl _, h⟩
  | cons c front ih =>
    cases h with
    | cons grows reads =>
      obtain ⟨middle, first, second⟩ := ih reads
      exact ⟨middle, .cons grows first, second⟩

theorem text_eq_cons (stem : Stem) : stem.text = '%' :: stem.text.tail := rfl

/-- What has been read determines the stem. -/
theorem Legal.text_inj {a b : Stem} (ha : a.Legal) (hb : b.Legal) (h : a.text = b.text) : a = b := by
  have reads := ha.reads
  rw [h] at reads
  exact reads.unique hb.reads

/-- A stem that is the beginning of a longer one grows by the next character of the longer one. -/
theorem Legal.grows_of_prefix {a b : Stem} (ha : a.Legal) (hb : b.Legal) {c : Char} {rest : List Char}
    (h : b.text = a.text ++ c :: rest) : ∃ next, Grows a c next := by
  have reads := hb.reads
  rw [h, text_eq_cons a, List.cons_append, List.tail_cons] at reads
  obtain ⟨middle, first, second⟩ := reads.append_inv
  cases second with
  | cons grows _ => exact ⟨_, first.unique ha.reads ▸ grows⟩

end Stem

private theorem Clause.Legal.eq_of_longer {a b : Clause} (ha : a.Legal) (hb : b.Legal)
    {r s more : List Char} (stems : b.stem.text = a.stem.text ++ more)
    (rest : a.conversion.char :: r = more ++ b.conversion.char :: s) : a = b ∧ r = s := by
  cases more with
  | nil =>
    rw [List.append_nil] at stems
    obtain ⟨conversion, tail⟩ := List.cons.inj rest
    have same := ha.stem.text_inj hb.stem stems.symm
    refine ⟨?_, tail⟩
    rw [← a.clause_stem, ← b.clause_stem, same, Conversion.char_injective conversion]
  | cons c more =>
    obtain ⟨next, grows⟩ := ha.stem.grows_of_prefix hb.stem stems
    rw [← (List.cons.inj rest).1] at grows
    exact absurd (Symbol.ofChar_conversionChar _) (grows.symbol_ne.2 _)

/-- No clause is the beginning of another one: a text begins with at most one clause. -/
theorem Clause.Legal.append_inj {a b : Clause} (ha : a.Legal) (hb : b.Legal) {r s : List Char}
    (h : a.text ++ r = b.text ++ s) : a = b ∧ r = s := by
  rw [a.text_eq_stem, b.text_eq_stem, List.append_assoc, List.append_assoc] at h
  rcases List.append_eq_append_iff.mp h with ⟨more, stems, rest⟩ | ⟨more, stems, rest⟩
  · exact ha.eq_of_longer hb stems rest
  · obtain ⟨same, tail⟩ := hb.eq_of_longer ha stems rest
    exact ⟨same.symm, tail.symm⟩

private theorem Clause.Legal.append_ne_escape {clause : Clause} (h : clause.Legal) (r s : List Char) :
    clause.text ++ r ≠ '%' :: '%' :: s := by
  intro same
  rw [clause.text_eq_stem, Stem.text_eq_cons] at same
  have reads := h.stem.reads
  generalize clause.stem = stem at same reads
  generalize stem.text.tail = tail at same reads
  cases reads with
  | refl =>
    have conversion : clause.conversion.char = '%' := by simpa using (List.cons.inj (List.cons.inj same).2).1
    have symbol := Symbol.ofChar_conversionChar clause.conversion
    rw [conversion] at symbol
    cases symbol
  | cons grows _ =>
    have second := (List.cons.inj (List.cons.inj same).2).1
    exact absurd (second ▸ Symbol.ofChar_percent) grows.symbol_ne.1

namespace Item

/-- A text begins with at most one item. -/
theorem Legal.append_inj {a b : Item} (ha : a.Legal) (hb : b.Legal) {r s : List Char}
    (h : a.text ++ r = b.text ++ s) : a = b ∧ r = s := by
  cases a with
  | literal c =>
    cases b with
    | literal d =>
      obtain ⟨rfl, tail⟩ := List.cons.inj h
      exact ⟨rfl, tail⟩
    | percent | clause _ => exact absurd (List.cons.inj h).1 ha
  | percent =>
    cases b with
    | literal _ => exact absurd (List.cons.inj h).1.symm hb
    | percent => exact ⟨rfl, List.append_cancel_left h⟩
    | clause other => exact absurd h.symm (Clause.Legal.append_ne_escape hb _ _)
  | clause written =>
    cases b with
    | literal _ => exact absurd (List.cons.inj h).1.symm hb
    | percent => exact absurd h (Clause.Legal.append_ne_escape ha _ _)
    | clause other =>
      obtain ⟨rfl, tail⟩ := Clause.Legal.append_inj ha hb h
      exact ⟨rfl, tail⟩

theorem text_ne_nil (item : Item) : item.text ≠ [] := by
  cases item <;> simp [text, Clause.text_eq_stem]

theorem flatMap_text_inj {xs ys : List Item} (hx : ∀ item ∈ xs, item.Legal)
    (hy : ∀ item ∈ ys, item.Legal) (h : xs.flatMap text = ys.flatMap text) : xs = ys := by
  induction xs generalizing ys with
  | nil =>
    cases ys with
    | nil => rfl
    | cons y ys => simp [text_ne_nil] at h
  | cons x xs ih =>
    cases ys with
    | nil => simp [text_ne_nil] at h
    | cons y ys =>
      rw [List.flatMap_cons, List.flatMap_cons] at h
      obtain ⟨rfl, tail⟩ := (hx x (by simp)).append_inj (hy y (by simp)) h
      rw [ih (fun item hm => hx item (by simp [hm])) (fun item hm => hy item (by simp [hm])) tail]

end Item

/-- What follows the last finished item of a text. -/
inductive Ending where
  | complete
  | unterminated (stem : Stem)
  /-- The character `c` may not stand behind the stem. -/
  | refused (stem : Stem) (c : Char) (rest : List Char)

namespace Ending

def text : Ending → List Char
  | complete => []
  | unterminated stem => stem.text
  | refused stem c rest => stem.text ++ c :: rest

/-- The endings that a text can have. -/
def Legal : Ending → Prop
  | complete => True
  | unterminated stem => stem.Legal
  | refused stem c _ => stem.Legal ∧ ¬ stem.Accepts c

end Ending

/-- The text is the spelling of `items`, followed by `ending`. -/
structure Reading (text : List Char) (items : List Item) (ending : Ending) : Prop where
  items_legal : ∀ item ∈ items, item.Legal
  ending_legal : ending.Legal
  spelled : text = items.flatMap Item.text ++ ending.text

private theorem Reading.cons {text : List Char} {items : List Item} {ending : Ending}
    (h : Reading text items ending) {item : Item} (legal : item.Legal) :
    Reading (item.text ++ text) (item :: items) ending where
  items_legal := by simpa using ⟨legal, h.items_legal⟩
  ending_legal := h.ending_legal
  spelled := by rw [h.spelled, List.flatMap_cons, List.append_assoc]

/-- Behind a percent sign the longest stem decides what stands there. -/
private theorem exists_clause_or_ending (rest : List Char) :
    (∃ item : Item, ∃ tail, item.Legal ∧ '%' :: rest = item.text ++ tail) ∨
      ∃ ending : Ending, ending.Legal ∧ '%' :: rest = ending.text := by
  obtain ⟨read, last, rest, reads, rfl, stuck⟩ := Stem.opened.exists_longest rest
  have legal := reads.legal Stem.legal_opened
  have spelled : last.text = '%' :: read := reads.text
  rw [← List.cons_append, ← spelled]
  cases rest with
  | nil => exact .inr ⟨.unterminated last, legal, List.append_nil _⟩
  | cons c rest =>
    by_cases accepts : last.Accepts c
    · left
      rcases accepts with ⟨next, grows⟩ | ⟨digit, conversion, rfl⟩ | ⟨rfl, rfl⟩
      · exact absurd grows (stuck c rfl next)
      · refine ⟨.clause (last.clause conversion), rest, legal.clause digit conversion, ?_⟩
        rw [Item.text, Stem.text_clause, List.append_assoc, List.singleton_append]
      · exact ⟨.percent, rest, trivial, rfl⟩
    · exact .inr ⟨.refused last c rest, ⟨legal, accepts⟩, rfl⟩

/-- Every text begins with an item or is an ending. -/
theorem exists_item_or_ending (text : List Char) :
    (∃ item : Item, ∃ tail, item.Legal ∧ text = item.text ++ tail) ∨
      ∃ ending : Ending, ending.Legal ∧ text = ending.text := by
  cases text with
  | nil => exact .inr ⟨.complete, trivial, rfl⟩
  | cons c rest =>
    by_cases percent : c = '%'
    · subst percent
      exact exists_clause_or_ending rest
    · exact .inl ⟨.literal c, rest, percent, rfl⟩

/-- Every text is a sequence of items and an ending. -/
theorem exists_reading (text : List Char) : ∃ items ending, Reading text items ending := by
  induction size : text.length using Nat.strongRecOn generalizing text with
  | ind n ih =>
    rcases exists_item_or_ending text with ⟨item, tail, legal, rfl⟩ | ⟨ending, legal, rfl⟩
    · have shorter : tail.length < n := by
        have := List.length_pos_iff.mpr item.text_ne_nil
        rw [← size, List.length_append]
        omega
      obtain ⟨items, ending, reading⟩ := ih _ shorter tail rfl
      exact ⟨item :: items, ending, reading.cons legal⟩
    · exact ⟨[], ending, by simp, legal, rfl⟩

end BraceTemplate
