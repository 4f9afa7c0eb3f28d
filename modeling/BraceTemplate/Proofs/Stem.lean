import BraceTemplate.Grammar
import BraceTemplate.Proofs.Symbol

/-! Clauses of which only the beginning has been read. A stem keeps every part as it is spelled,
and grows by one character exactly where the grammar allows that character next. -/
namespace BraceTemplate

/-- The beginning of a clause. A precision without digits is a dot that still wants one. -/
structure Stem where
  flags : List Flag
  width : List (Fin 10)
  precision : Option (List (Fin 10))
  length : Option LengthModifier
  deriving DecidableEq, Repr

namespace Stem

def opened : Stem := ⟨[], [], none, none⟩

/-- The characters read so far. -/
def text (stem : Stem) : List Char :=
  '%' :: stem.flags.map Flag.char ++ Decimal.spell stem.width
    ++ stem.precision.elim [] (fun digits => '.' :: Decimal.spell digits)
    ++ stem.length.elim [] (·.text.toList)

/-- The beginnings of legal clauses. Only a precision may be unfinished, and then nothing is behind it. -/
structure Legal (stem : Stem) : Prop where
  flags_nodup : stem.flags.Nodup
  width_head : stem.width.head? ≠ some 0
  width_lt : Decimal.valueFrom 0 stem.width < UInt32.size
  precision_lt : ∀ digits ∈ stem.precision, Decimal.valueFrom 0 digits < UInt32.size
  length_eq_none : stem.precision = some [] → stem.length = none

/-- The clause that a conversion makes of the stem. -/
def clause (stem : Stem) (conversion : Conversion) : Clause :=
  ⟨stem.flags, stem.width, stem.precision, stem.length, conversion⟩

theorem text_clause (stem : Stem) (conversion : Conversion) :
    (stem.clause conversion).text = stem.text ++ [conversion.char] := rfl

/-- A conversion may follow every legal stem that does not want a digit. -/
theorem Legal.clause {stem : Stem} (h : stem.Legal) (hp : stem.precision ≠ some [])
    (conversion : Conversion) : (stem.clause conversion).Legal :=
  ⟨h.flags_nodup, h.width_head, h.width_lt, hp, h.precision_lt⟩

end Stem

def Clause.stem (clause : Clause) : Stem :=
  ⟨clause.flags, clause.width, clause.precision, clause.length⟩

theorem Clause.clause_stem (clause : Clause) : clause.stem.clause clause.conversion = clause := rfl

theorem Clause.text_eq_stem (clause : Clause) :
    clause.text = clause.stem.text ++ [clause.conversion.char] := rfl

theorem Clause.Legal.stem {clause : Clause} (h : clause.Legal) : clause.stem.Legal :=
  ⟨h.flags_nodup, h.width_head, h.width_lt, h.precision_lt,
    fun hp => absurd hp h.precision_ne_nil⟩

namespace Stem

theorem legal_opened : opened.Legal :=
  ⟨.nil, by decide, by decide, by simp [opened], by simp [opened]⟩

/-- One more character of a clause: a new flag, a digit of a number that stays within 32 bits, the
dot, or a length letter, each only behind the parts that precede it. -/
inductive Grows : Stem → Char → Stem → Prop where
  | flag {flags : List Flag} {flag : Flag} (fresh : flag ∉ flags) :
    Grows ⟨flags, [], none, none⟩ flag.char ⟨flags ++ [flag], [], none, none⟩
  | width {flags : List Flag} {digits : List (Fin 10)} {d : Fin 10} (head : digits = [] → d ≠ 0)
    (fits : Decimal.valueFrom 0 (digits ++ [d]) < UInt32.size) :
    Grows ⟨flags, digits, none, none⟩ (Decimal.digitChar d) ⟨flags, digits ++ [d], none, none⟩
  | dot {flags : List Flag} {width : List (Fin 10)} :
    Grows ⟨flags, width, none, none⟩ '.' ⟨flags, width, some [], none⟩
  | precision {flags : List Flag} {width digits : List (Fin 10)} {d : Fin 10}
    (fits : Decimal.valueFrom 0 (digits ++ [d]) < UInt32.size) :
    Grows ⟨flags, width, some digits, none⟩ (Decimal.digitChar d)
      ⟨flags, width, some (digits ++ [d]), none⟩
  | length {flags : List Flag} {width : List (Fin 10)} {precision : Option (List (Fin 10))}
    {c : Char} {modifier : LengthModifier} (digit : precision ≠ some [])
    (letter : LengthModifier.ofChar? c = some modifier) :
    Grows ⟨flags, width, precision, none⟩ c ⟨flags, width, precision, some modifier⟩
  | double {flags : List Flag} {width : List (Fin 10)} {precision : Option (List (Fin 10))}
    {c : Char} {first second joined : LengthModifier}
    (letter : LengthModifier.ofChar? c = some second) (join : first.join? second = some joined) :
    Grows ⟨flags, width, precision, some first⟩ c ⟨flags, width, precision, some joined⟩

/-- The characters that may stand behind the stem: one by which it grows, the conversion that
finishes the clause, or the second percent sign of an escape. -/
def Accepts (stem : Stem) (c : Char) : Prop :=
  (∃ next, Grows stem c next) ∨ (stem.precision ≠ some [] ∧ ∃ conversion : Conversion, c = conversion.char)
    ∨ (stem = opened ∧ c = '%')

theorem Grows.text {stem next : Stem} {c : Char} (h : Grows stem c next) :
    next.text = stem.text ++ [c] := by
  cases h with
  | length _ letter => simp [Stem.text, LengthModifier.text_of_ofChar? letter]
  | double letter join =>
    simp [Stem.text, LengthModifier.text_of_join? join, LengthModifier.text_of_ofChar? letter]
  | _ => simp [Stem.text]

theorem Grows.legal {stem next : Stem} {c : Char} (h : Grows stem c next) (hs : stem.Legal) :
    next.Legal := by
  obtain ⟨nodup, head, width_lt, precision_lt, length_none⟩ := hs
  cases h with
  | flag fresh =>
    refine ⟨?_, head, width_lt, precision_lt, length_none⟩
    exact List.nodup_append.mpr ⟨nodup, by simp, by simpa using fun a ha => ne_of_mem_of_not_mem ha fresh⟩
  | @width flags digits d first fits =>
    refine ⟨nodup, ?_, fits, precision_lt, length_none⟩
    cases digits with
    | nil => simpa using first rfl
    | cons => simpa using head
  | dot => exact ⟨nodup, head, width_lt, by simp [Decimal.valueFrom], fun _ => rfl⟩
  | precision fits => exact ⟨nodup, head, width_lt, by simpa using fits, by simp⟩
  | length digit => exact ⟨nodup, head, width_lt, precision_lt, fun h => absurd h digit⟩
  | double => exact ⟨nodup, head, width_lt, precision_lt, fun h => absurd (length_none h) (by simp)⟩

section Last

variable {flags : List Flag} {width : List (Fin 10)} {precision : Option (List (Fin 10))}

private theorem last_flag (h : Legal ⟨flags, [], none, none⟩) (hne : flags ≠ []) :
    ∃ before c, Grows before c ⟨flags, [], none, none⟩ ∧ before.Legal := by
  obtain ⟨nodup, head, width_lt, precision_lt, length_none⟩ := h
  cases flags using List.reverseRecOn with
  | nil => exact absurd rfl hne
  | append_singleton flags flag =>
    have parts := List.nodup_append.mp nodup
    have fresh : flag ∉ flags := fun hm => parts.2.2 flag hm flag (by simp) rfl
    exact ⟨_, _, .flag fresh, parts.1, head, width_lt, precision_lt, length_none⟩

private theorem last_width (h : Legal ⟨flags, width, none, none⟩) (hne : width ≠ []) :
    ∃ before c, Grows before c ⟨flags, width, none, none⟩ ∧ before.Legal := by
  obtain ⟨nodup, head, width_lt, precision_lt, length_none⟩ := h
  cases width using List.reverseRecOn with
  | nil => exact absurd rfl hne
  | append_singleton digits d =>
    have shorter := Nat.lt_of_le_of_lt (Decimal.valueFrom_le_append 0 digits [d]) width_lt
    have first : digits = [] → d ≠ 0 := by
      rintro rfl
      simpa using head
    have head' : digits.head? ≠ some 0 := by
      cases digits with
      | nil => simp
      | cons => simpa using head
    exact ⟨_, _, .width first width_lt, nodup, head', shorter, precision_lt, length_none⟩

private theorem last_precision {digits : List (Fin 10)} (h : Legal ⟨flags, width, some digits, none⟩) :
    ∃ before c, Grows before c ⟨flags, width, some digits, none⟩ ∧ before.Legal := by
  obtain ⟨nodup, head, width_lt, precision_lt, length_none⟩ := h
  cases digits using List.reverseRecOn with
  | nil => exact ⟨_, '.', .dot, nodup, head, width_lt, by simp, fun _ => rfl⟩
  | append_singleton digits d =>
    have fits : Decimal.valueFrom 0 (digits ++ [d]) < UInt32.size := precision_lt _ rfl
    have shorter := Nat.lt_of_le_of_lt (Decimal.valueFrom_le_append 0 digits [d]) fits
    exact ⟨_, _, .precision fits, nodup, head, width_lt, by simpa using shorter, fun _ => rfl⟩

private theorem last_length {modifier : LengthModifier} (h : Legal ⟨flags, width, precision, some modifier⟩) :
    ∃ before c, Grows before c ⟨flags, width, precision, some modifier⟩ ∧ before.Legal := by
  obtain ⟨nodup, head, width_lt, precision_lt, length_none⟩ := h
  have digit : precision ≠ some [] := fun hp => absurd (length_none hp) (by simp)
  have single : Stem.Legal ⟨flags, width, precision, none⟩ :=
    ⟨nodup, head, width_lt, precision_lt, fun _ => rfl⟩
  have letters (first : LengthModifier) : Stem.Legal ⟨flags, width, precision, some first⟩ :=
    ⟨nodup, head, width_lt, precision_lt, fun hp => absurd hp digit⟩
  cases modifier with
  | char => exact ⟨_, 'h', .double rfl rfl, letters .short⟩
  | longLong => exact ⟨_, 'l', .double rfl rfl, letters .long⟩
  | short => exact ⟨_, 'h', .length digit rfl, single⟩
  | long => exact ⟨_, 'l', .length digit rfl, single⟩
  | maximal => exact ⟨_, 'j', .length digit rfl, single⟩
  | size => exact ⟨_, 'z', .length digit rfl, single⟩
  | difference => exact ⟨_, 't', .length digit rfl, single⟩
  | longDouble => exact ⟨_, 'L', .length digit rfl, single⟩

end Last

/-- Every stem but the percent sign alone is grown from a shorter one, by the last of its parts. -/
theorem exists_grows {stem : Stem} (h : stem.Legal) (hne : stem ≠ opened) :
    ∃ before c, Grows before c stem ∧ before.Legal := by
  obtain ⟨flags, width, precision, length⟩ := stem
  cases length with
  | some modifier => exact last_length h
  | none =>
    cases precision with
    | some digits => exact last_precision h
    | none =>
      by_cases digits : width = []
      · subst digits
        apply last_flag h
        rintro rfl
        exact hne rfl
      · exact last_width h digits

inductive Reads : Stem → List Char → Stem → Prop where
  | refl (stem : Stem) : Reads stem [] stem
  | cons {stem next last : Stem} {c : Char} {rest : List Char} (grows : Grows stem c next)
    (reads : Reads next rest last) : Reads stem (c :: rest) last

theorem Reads.concat {stem last next : Stem} {text : List Char} {c : Char}
    (h : Reads stem text last) (grows : Grows last c next) : Reads stem (text ++ [c]) next := by
  induction h with
  | refl => exact .cons grows (.refl _)
  | cons first _ ih => exact .cons first (ih grows)

theorem Reads.legal {stem last : Stem} {text : List Char} (h : Reads stem text last)
    (hs : stem.Legal) : last.Legal := by
  induction h with
  | refl => exact hs
  | cons grows _ ih => exact ih (grows.legal hs)

theorem Reads.text {stem last : Stem} {text : List Char} (h : Reads stem text last) :
    last.text = stem.text ++ text := by
  induction h with
  | refl => simp
  | cons grows _ ih => rw [ih, grows.text, List.append_assoc, List.singleton_append]

/-- Every legal stem is read off the characters behind its percent sign. -/
theorem Legal.reads {stem : Stem} (h : stem.Legal) : Reads opened stem.text.tail stem := by
  generalize size : stem.text.length = n
  induction n generalizing stem with
  | zero => simp [Stem.text] at size
  | succ n ih =>
    by_cases start : stem = opened
    · subst start
      exact .refl _
    · obtain ⟨before, c, grows, legal⟩ := exists_grows h start
      have length : before.text.length = n := by
        rw [grows.text, List.length_append, List.length_singleton] at size
        omega
      have tail : stem.text.tail = before.text.tail ++ [c] := by
        rw [grows.text, List.tail_append_of_ne_nil (by simp [Stem.text])]
      rw [tail]
      exact (ih legal length).concat grows

/-- A stem grows along a text until the text ends or a character does not fit. -/
theorem exists_longest (stem : Stem) (text : List Char) :
    ∃ read last rest, Reads stem read last ∧ text = read ++ rest ∧
      ∀ c ∈ rest.head?, ∀ next, ¬ Grows last c next := by
  induction text generalizing stem with
  | nil => exact ⟨[], stem, [], .refl _, rfl, by simp⟩
  | cons c text ih =>
    by_cases fits : ∃ next, Grows stem c next
    · obtain ⟨next, grows⟩ := fits
      obtain ⟨read, last, rest, reads, split, stuck⟩ := ih next
      exact ⟨c :: read, last, rest, .cons grows reads, by rw [split, List.cons_append], stuck⟩
    · exact ⟨[], stem, c :: text, .refl _, rfl, by simpa using fits⟩

end Stem

end BraceTemplate
