import BraceTemplate.Proofs.Transcode

/-! How a scanner fills its field. Whatever it is offered, it is outside of clauses with nothing left over or
behind the beginning of a clause, so its place tells what the field holds, and a part of the field stays as it
is as soon as the grammar has come to a later one. -/
namespace BraceTemplate

namespace Field

/-- The parts of a field. -/
inductive Part where
  | flags
  | width
  | precision
  | length
  deriving DecidableEq, Repr

/-- The number of parts that the grammar has before this one. -/
def Part.rank : Part → Nat
  | flags => 0
  | width => 1
  | precision => 2
  | length => 3

/-- Whether the part has been given. -/
def Has (field : Field) : Part → Prop
  | .flags => field.flags ≠ .empty
  | .width => field.width ≠ none
  | .precision => field.precision ≠ none
  | .length => field.length ≠ none

/-- Whether two fields have the same value for the part. -/
def Agree (a b : Field) : Part → Prop
  | .flags => a.flags = b.flags
  | .width => a.width = b.width
  | .precision => a.precision = b.precision
  | .length => a.length = b.length

theorem Agree.trans {a b c : Field} {part : Part} (h : a.Agree b part) (h' : b.Agree c part) : a.Agree c part := by
  cases part <;> exact Eq.trans h h'

theorem agree_refl (field : Field) (part : Part) : field.Agree field part := by
  cases part <;> rfl

end Field

namespace Position

/-- The number of parts that come before this place in the grammar. -/
def passed : Position → Nat
  | outside | opened | flags => 0
  | width => 1
  | dot | precision => 2
  | length _ => 3
  | complete => 4

/-- What the field of a scanner holds at this place. -/
def Allows : Position → Field → Prop
  | outside, field | opened, field => field = .empty
  | flags, field =>
    field.flags ≠ .empty ∧ field.width = none ∧ field.precision = none ∧ field.length = none
  | width, field => (∃ n, field.width = some n ∧ 1 ≤ n) ∧ field.precision = none ∧ field.length = none
  | dot, field => (∀ n ∈ field.width, 1 ≤ n) ∧ field.precision = none ∧ field.length = none
  | precision, field => (∀ n ∈ field.width, 1 ≤ n) ∧ field.precision ≠ none ∧ field.length = none
  | length modifier, field =>
    field.length = some modifier ∧
      modifier ∈ [.short, .long, .maximal, .size, .difference, .longDouble]
  | complete, field => field.length = some .char ∨ field.length = some .longLong

end Position

namespace Stem

section Field

variable {flags : List Flag} {width digits : List (Fin 10)} {precision : Option (List (Fin 10))}

private theorem one_le_number? (head : digits.head? ≠ some 0) (small : Decimal.valueFrom 0 digits < UInt32.size)
    (n : UInt32) (h : n ∈ number? digits) : 1 ≤ n := by
  have given : number? digits = some n := h
  have hne : digits ≠ [] := by
    rintro rfl
    cases given
  rw [number?, if_neg (by simpa using hne)] at given
  rw [← Option.some.inj given, UInt32.le_iff_toNat_le, UInt32.toNat_ofNat_of_lt' small]
  exact Decimal.valueFrom_pos hne head

private theorem number?_isSome (hne : digits ≠ []) : ∃ n, number? digits = some n :=
  ⟨_, if_neg (by simpa using hne)⟩

private theorem ofList_ne_empty (hne : flags ≠ []) : FlagSet.ofList flags ≠ .empty := by
  obtain ⟨flag, member⟩ := List.exists_mem_of_ne_nil flags hne
  intro same
  have unset := FlagSet.contains_empty flag
  rw [← same, FlagSet.contains_ofList] at unset
  exact of_decide_eq_false unset member

end Field

/-- The place behind a stem tells what the field holds. -/
private theorem Legal.allows {stem : Stem} (h : stem.Legal) : stem.position.Allows stem.field := by
  obtain ⟨flags, width, precision, length⟩ := stem
  have positive := one_le_number? h.width_head h.width_lt
  cases length with
  | some modifier => cases modifier <;> simp [position, Position.Allows, field]
  | none =>
    cases precision with
    | some digits =>
      by_cases empty : digits = []
      · subst empty
        exact ⟨positive, rfl, rfl⟩
      · obtain ⟨n, given⟩ := number?_isSome empty
        rw [position_precision empty]
        exact ⟨positive, by simp [field, given], rfl⟩
    | none =>
      by_cases empty : width = []
      · subst empty
        by_cases fresh : flags = []
        · subst fresh
          rfl
        · have place : position ⟨flags, [], none, none⟩ = .flags := by simp [position, fresh]
          rw [place]
          exact ⟨ofList_ne_empty fresh, rfl, rfl, rfl⟩
      · obtain ⟨n, given⟩ := number?_isSome empty
        rw [position_width empty]
        exact ⟨⟨n, given, positive n given⟩, rfl, rfl⟩

section Passed

variable {flags : List Flag} {width : List (Fin 10)} {precision : Option (List (Fin 10))}

private theorem passed_flags (flags : List Flag) : (position ⟨flags, [], none, none⟩).passed = 0 := by
  rcases position_flags flags with place | place <;> rw [place] <;> rfl

private theorem passed_width_le : (position ⟨flags, width, none, none⟩).passed ≤ 1 := by
  by_cases empty : width = []
  · rw [empty, passed_flags]
    exact Nat.zero_le 1
  · rw [position_width empty]
    exact Nat.le_refl 1

private theorem passed_precision (digits : List (Fin 10)) :
    (position ⟨flags, width, some digits, none⟩).passed = 2 := by
  cases digits <;> rfl

private theorem passed_precision_le : (position ⟨flags, width, precision, none⟩).passed ≤ 2 := by
  cases precision with
  | none => exact Nat.le_succ_of_le passed_width_le
  | some digits => exact Nat.le_of_eq (passed_precision digits)

end Passed

variable {stem next : Stem} {c : Char}

private theorem Grows.passed_le (h : Grows stem c next) : stem.position.passed ≤ next.position.passed := by
  cases h with
  | flag => exact Nat.le_of_eq ((passed_flags _).trans (passed_flags _).symm)
  | width =>
    rw [position_width (List.concat_ne_nil _ _)]
    exact passed_width_le
  | dot => exact Nat.le_succ_of_le passed_width_le
  | precision => exact Nat.le_of_eq ((passed_precision _).trans (passed_precision _).symm)
  | length _ letter =>
    rw [position_letter letter]
    exact Nat.le_succ_of_le passed_precision_le
  | double _ join =>
    rw [(position_join join).1, (position_join join).2]
    exact Nat.le_succ 3

theorem Grows.contains (h : Grows stem c next) {flag : Flag} (old : stem.field.flags.contains flag) :
    next.field.flags.contains flag := by
  cases h with
  | flag => simp_all [Stem.field]
  | _ => exact old

/-- Growth changes one part of the field at most, and none that comes before the place of the stem. -/
private theorem Grows.exists_part (h : Grows stem c next) :
    ∃ part, stem.position.passed ≤ part.rank ∧
      ∀ other, other ≠ part → stem.field.Agree next.field other := by
  cases h with
  | flag =>
    refine ⟨.flags, Nat.le_of_eq (passed_flags _), fun other apart => ?_⟩
    cases other with
    | flags => exact absurd rfl apart
    | width | precision | length => rfl
  | width =>
    refine ⟨.width, passed_width_le, fun other apart => ?_⟩
    cases other with
    | width => exact absurd rfl apart
    | flags | precision | length => rfl
  | dot => exact ⟨.precision, Nat.le_succ_of_le passed_width_le, fun other _ => by cases other <;> rfl⟩
  | precision =>
    refine ⟨.precision, Nat.le_of_eq (passed_precision _), fun other apart => ?_⟩
    cases other with
    | precision => exact absurd rfl apart
    | flags | width | length => rfl
  | length =>
    refine ⟨.length, Nat.le_succ_of_le passed_precision_le, fun other apart => ?_⟩
    cases other with
    | length => exact absurd rfl apart
    | flags | width | precision => rfl
  | double _ join =>
    refine ⟨.length, Nat.le_of_eq (by rw [(position_join join).1]; rfl), fun other apart => ?_⟩
    cases other with
    | length => exact absurd rfl apart
    | flags | width | precision => rfl

end Stem

/-- A part of the field is given only where the parts before it have been passed. -/
private theorem Position.Allows.rank_le_passed {position : Position} {field : Field} (h : position.Allows field)
    {part : Field.Part} (given : field.Has part) : part.rank ≤ position.passed := by
  cases position <;> cases part <;> simp_all [Allows, Field.Has, Field.Part.rank, passed, Field.empty]

namespace Scanner

/-- The scanner after calls with any offsets, those included that it refuses. -/
def after (scanner : Scanner) (calls : List (Nat × Char)) : Scanner :=
  calls.foldl (fun current call => (current.offer call.1 call.2).2) scanner

theorem after_cons {scanner next : Scanner} {offset : Nat} {c : Char} {answer : Result Step}
    (h : scanner.offer offset c = (answer, next)) (calls : List (Nat × Char)) :
    scanner.after ((offset, c) :: calls) = next.after calls := by
  rw [after, List.foldl_cons, h]
  rfl

/-- Outside of clauses with nothing left over, or behind the beginning of a clause. -/
inductive Sound : Scanner → Prop where
  | outside (clauseStart : Nat) : Sound ⟨.outside, .empty, clauseStart⟩
  | inside {stem : Stem} (legal : stem.Legal) (clauseStart : Nat) : Sound (stem.scanner clauseStart)

/-- What a sound scanner does with a character that it takes. -/
inductive Takes : Scanner → Nat → Char → Step → Scanner → Prop where
  | literal {c : Char} (plain : c ≠ '%') (clauseStart offset : Nat) :
    Takes ⟨.outside, .empty, clauseStart⟩ offset c (.literal c) ⟨.outside, .empty, clauseStart⟩
  | opens (clauseStart offset : Nat) :
    Takes ⟨.outside, .empty, clauseStart⟩ offset '%' .pending (Stem.opened.scanner offset)
  | grows {stem next : Stem} {c : Char} (legal : stem.Legal) (grows : Stem.Grows stem c next)
    (clauseStart offset : Nat) :
    Takes (stem.scanner clauseStart) offset c .pending (next.scanner clauseStart)
  | escapes (clauseStart offset : Nat) :
    Takes (Stem.opened.scanner clauseStart) offset '%' .percent ⟨.outside, .empty, clauseStart⟩
  | closes {stem : Stem} (legal : stem.Legal) (digit : stem.precision ≠ some []) (conversion : Conversion)
    {clauseStart offset : Nat} (ordered : clauseStart ≤ offset + conversion.char.utf8Size) :
    Takes (stem.scanner clauseStart) offset conversion.char
      (.specifier ⟨stem.field, conversion, ⟨clauseStart, offset + conversion.char.utf8Size⟩⟩)
      ⟨.outside, .empty, clauseStart⟩

variable {scanner next : Scanner} {offset : Nat} {c : Char} {step : Step}

/-- What a sound scanner can answer to a character: it takes it, or it refuses it for the fault behind its stem.
It also fails where a clause would end before its beginning. -/
theorem Sound.step_cases (h : scanner.Sound) (offset : Nat) (c : Char) :
    (∃ step next, scanner.step offset c = .ok (step, next) ∧ Takes scanner offset c step next) ∨
      (∃ stem : Stem, scanner.step offset c = .error (.format (stem.refusal c offset))) ∨
      ∃ fault, scanner.step offset c = .error (.fault fault) := by
  cases h with
  | outside clauseStart =>
    by_cases percent : c = '%'
    · subst percent
      exact .inl ⟨_, _, step_open rfl offset, .opens clauseStart offset⟩
    · exact .inl ⟨_, _, step_literal rfl percent offset, .literal percent clauseStart offset⟩
  | @inside stem legal clauseStart =>
    by_cases accepts : stem.Accepts c
    · rcases accepts with ⟨next, grows⟩ | ⟨digit, conversion, rfl⟩ | ⟨rfl, rfl⟩
      · exact .inl ⟨_, _, grows.step legal clauseStart offset, .grows legal grows clauseStart offset⟩
      · rw [Stem.step_close digit]
        rcases Nat.lt_or_ge (offset + conversion.char.utf8Size) clauseStart with inverted | ordered
        · exact .inr (.inr ⟨_, close_of_lt conversion inverted⟩)
        · exact .inl ⟨_, _, close_of_le conversion ordered, .closes legal digit conversion ordered⟩
      · exact .inl ⟨_, _, Stem.step_percent clauseStart offset, .escapes clauseStart offset⟩
    · exact .inr (.inl ⟨stem, Stem.step_refusal legal accepts clauseStart offset⟩)

theorem Sound.takes (h : scanner.Sound) (taken : scanner.step offset c = .ok (step, next)) :
    Takes scanner offset c step next := by
  rcases h.step_cases offset c with ⟨_, _, answer, takes⟩ | ⟨_, answer⟩ | ⟨_, answer⟩
  · cases answer.symm.trans taken
    exact takes
  · cases answer.symm.trans taken
  · cases answer.symm.trans taken

private theorem Takes.sound (h : Takes scanner offset c step next) : next.Sound := by
  cases h with
  | literal _ clauseStart | escapes clauseStart | closes _ _ _ _ => exact .outside _
  | opens _ offset => exact .inside Stem.legal_opened offset
  | grows legal grows clauseStart => exact .inside (grows.legal legal) clauseStart

theorem Sound.offer (h : scanner.Sound) (offset : Nat) (c : Char) : (scanner.offer offset c).2.Sound := by
  unfold Scanner.offer
  split
  · next taken => exact (h.takes taken).sound
  · exact h

theorem Sound.after (h : scanner.Sound) (calls : List (Nat × Char)) : (scanner.after calls).Sound := by
  induction calls generalizing scanner with
  | nil => exact h
  | cons call calls ih => exact ih (h.offer call.1 call.2)

private theorem Sound.allows (h : scanner.Sound) : scanner.position.Allows scanner.field := by
  cases h with
  | outside => rfl
  | inside legal => exact legal.allows

/-- Whether the grammar has come to something behind the part: the scanner stands behind it, or a later part
has been given. -/
def Passed (scanner : Scanner) (part : Field.Part) : Prop :=
  part.rank < scanner.position.passed ∨ ∃ later : Field.Part, part.rank < later.rank ∧ scanner.field.Has later

private theorem Sound.rank_lt_of_passed (h : scanner.Sound) {part : Field.Part} (passed : scanner.Passed part) :
    part.rank < scanner.position.passed := by
  rcases passed with place | ⟨later, order, given⟩
  · exact place
  · exact Nat.lt_of_lt_of_le order (h.allows.rank_le_passed given)

/-- From one scanner to another in the same clause. -/
structure Continues (scanner next : Scanner) : Prop where
  passed_le : scanner.position.passed ≤ next.position.passed
  contains : ∀ flag, scanner.field.flags.contains flag → next.field.flags.contains flag
  agree : ∀ part : Field.Part, part.rank < scanner.position.passed → scanner.field.Agree next.field part

theorem Continues.refl (scanner : Scanner) : Continues scanner scanner :=
  ⟨Nat.le_refl _, fun _ member => member, fun part _ => scanner.field.agree_refl part⟩

theorem Continues.trans {middle : Scanner} (h : Continues scanner middle) (h' : Continues middle next) :
    Continues scanner next where
  passed_le := Nat.le_trans h.passed_le h'.passed_le
  contains flag member := h'.contains flag (h.contains flag member)
  agree part before := (h.agree part before).trans (h'.agree part (Nat.lt_of_lt_of_le before h.passed_le))

/-- Within a clause one part of the field changes at most. -/
private theorem Takes.exists_part (h : Takes scanner offset c step next) (inside : scanner.position ≠ .outside)
    (stays : next.position ≠ .outside) :
    ∃ part : Field.Part, scanner.position.passed ≤ part.rank ∧
      ∀ other, other ≠ part → scanner.field.Agree next.field other := by
  cases h with
  | literal | opens => exact absurd rfl inside
  | grows _ grows => exact grows.exists_part
  | escapes | closes => exact absurd rfl stays

private theorem Takes.continues (h : Takes scanner offset c step next) (inside : scanner.position ≠ .outside)
    (stays : next.position ≠ .outside) : Continues scanner next := by
  obtain ⟨part, passed, agree⟩ := h.exists_part inside stays
  cases h with
  | literal | opens => exact absurd rfl inside
  | escapes | closes => exact absurd rfl stays
  | grows _ grows =>
    refine ⟨grows.passed_le, fun _ => grows.contains, fun other before => agree other ?_⟩
    rintro rfl
    exact Nat.not_lt.mpr passed before

private theorem Sound.continues_offer (h : scanner.Sound) (inside : scanner.position ≠ .outside)
    (stays : (scanner.offer offset c).2.position ≠ .outside) : Continues scanner (scanner.offer offset c).2 := by
  unfold Scanner.offer at stays ⊢
  split
  · next taken =>
    rw [taken] at stays
    exact (h.takes taken).continues inside stays
  · exact .refl scanner

/-- Whether a clause is open before the calls, and after each of them. -/
def StaysInside (scanner : Scanner) (calls : List (Nat × Char)) : Prop :=
  ∀ front, front <+: calls → (scanner.after front).position ≠ .outside

/-- A clause that stays open goes on through all calls, refused ones included. -/
private theorem Sound.continues_after (h : scanner.Sound) {calls : List (Nat × Char)}
    (inside : scanner.StaysInside calls) : Continues scanner (scanner.after calls) := by
  induction calls generalizing scanner with
  | nil => exact .refl scanner
  | cons call calls ih =>
    have here := inside [] List.nil_prefix
    have stays := inside [call] ⟨calls, rfl⟩
    have later := ih (h.offer call.1 call.2) fun front before =>
      inside (call :: front) ((List.prefix_cons_inj call).mpr before)
    exact (h.continues_offer here stays).trans later

/-- A scanner that fills its field in the order of the grammar. -/
structure FillsInOrder (scanner : Scanner) : Prop where
  /-- The place tells what the field holds. -/
  allows : scanner.position.Allows scanner.field
  /-- A clause begins with a percent sign and nothing in the field. -/
  opens : ∀ offset c step next, scanner.step offset c = .ok (step, next) → scanner.position = .outside →
    next.position ≠ .outside → c = '%' ∧ next = ⟨.opened, .empty, offset⟩
  /-- In a clause that stays open, a step changes one part at most. -/
  exists_part : ∀ offset c step next, scanner.step offset c = .ok (step, next) → scanner.position ≠ .outside →
    next.position ≠ .outside → ∃ part : Field.Part, ∀ other, other ≠ part → scanner.field.Agree next.field other
  /-- While a clause stays open, flags are only added. -/
  contains : ∀ calls, scanner.StaysInside calls →
    ∀ flag, scanner.field.flags.contains flag → (scanner.after calls).field.flags.contains flag
  /-- While a clause stays open, no part changes that the grammar has passed. -/
  agree : ∀ calls, scanner.StaysInside calls →
    ∀ part : Field.Part, scanner.Passed part → scanner.field.Agree (scanner.after calls).field part
  /-- The end of a clause hands its field over, unless it is an escape, and leaves nothing of it. -/
  ends : ∀ offset c step next, scanner.step offset c = .ok (step, next) → scanner.position ≠ .outside →
    next.position = .outside → next.field = .empty ∧
      (step = .percent ∧ scanner.field = .empty ∨ ∃ found, step = .specifier found ∧ found.field = scanner.field)

private theorem Sound.fillsInOrder (h : scanner.Sound) : scanner.FillsInOrder where
  allows := h.allows
  opens offset c step next taken outside stays := by
    cases h.takes taken with
    | literal | escapes | closes => exact absurd rfl stays
    | opens => exact ⟨rfl, rfl⟩
    | grows => exact absurd outside (Stem.position_ne_outside _)
  exists_part offset c step next taken inside stays := by
    obtain ⟨part, -, agree⟩ := (h.takes taken).exists_part inside stays
    exact ⟨part, agree⟩
  contains calls inside := (h.continues_after inside).contains
  agree calls inside part passed := (h.continues_after inside).agree part (h.rank_lt_of_passed passed)
  ends offset c step next taken inside outside := by
    cases h.takes taken with
    | literal | opens => exact absurd rfl inside
    | grows => exact absurd outside (Stem.position_ne_outside _)
    | escapes => exact ⟨rfl, .inl ⟨rfl, rfl⟩⟩
    | closes => exact ⟨rfl, .inr ⟨_, rfl, rfl⟩⟩

/-- Whatever is offered to a new scanner, at any offsets and refused or not, afterwards it fills its field in
the order of the grammar. -/
theorem fillsInOrder_after_start (calls : List (Nat × Char)) : (start.after calls).FillsInOrder :=
  ((Sound.outside 0).after calls).fillsInOrder

example : (start.after [(3, '%'), (0, '-'), (9, '-'), (1, '7'), (1, '+'), (0, 'd')]) =
    ⟨.width, ⟨.ofList [.minus], some 7, none, none⟩, 3⟩ := by decide

end Scanner

end BraceTemplate
