import BraceTemplate.Proofs.Stem
import BraceTemplate.Scanner

/-! The scanner inside a clause. Where it stands and what it holds are functions of the stem that it
has read, and its answer to one more character is decided by the grammar of stems. -/
namespace BraceTemplate

namespace FlagSet

private theorem contains_foldl_insert (set : FlagSet) (flags : List Flag) (flag : Flag) :
    (flags.foldl insert set).contains flag = (decide (flag ∈ flags) || set.contains flag) := by
  induction flags generalizing set with
  | nil => simp
  | cons first flags ih =>
    rw [List.foldl_cons, ih, contains_insert]
    by_cases same : flag = first
    · simp [same]
    · simp [same, Ne.symm same]

@[simp] theorem contains_ofList (flags : List Flag) (flag : Flag) :
    (ofList flags).contains flag = decide (flag ∈ flags) := by
  simp [ofList, contains_foldl_insert]

private theorem ofList_concat (flags : List Flag) (flag : Flag) :
    ofList (flags ++ [flag]) = (ofList flags).insert flag := by
  simp [ofList]

end FlagSet

namespace Stem

/-- The number that digits write, if there are any. -/
def number? (digits : List (Fin 10)) : Option UInt32 :=
  if digits.isEmpty then none else some (UInt32.ofNat (Decimal.valueFrom 0 digits))

/-- The place in the grammar behind the stem. -/
def position (stem : Stem) : Position :=
  match stem.length, stem.precision with
  | some .char, _ | some .longLong, _ => .complete
  | some modifier, _ => .length modifier
  | none, some [] => .dot
  | none, some (_ :: _) => .precision
  | none, none =>
    if stem.width ≠ [] then .width else if stem.flags ≠ [] then .flags else .opened

def field (stem : Stem) : Field :=
  ⟨.ofList stem.flags, number? stem.width, stem.precision.bind number?, stem.length⟩

/-- The scanner behind the stem of a clause that began at byte `start`. -/
def scanner (stem : Stem) (start : Nat) : Scanner := ⟨stem.position, stem.field, start⟩

theorem position_ne_outside (stem : Stem) : stem.position ≠ .outside := by
  unfold position
  (repeat' split) <;> nofun

/-- Only a dot without digits has its own place. -/
private theorem position_ne_dot {stem : Stem} (hp : stem.precision ≠ some []) : stem.position ≠ .dot := by
  unfold position
  split
  · nofun
  · nofun
  · nofun
  · next dot => exact absurd dot hp
  · nofun
  · (repeat' split) <;> nofun

section Position

variable {flags : List Flag} {width digits : List (Fin 10)} {precision : Option (List (Fin 10))}

theorem position_flags (flags : List Flag) :
    position ⟨flags, [], none, none⟩ = .opened ∨ position ⟨flags, [], none, none⟩ = .flags := by
  cases flags <;> simp [position]

theorem position_width (hne : width ≠ []) : position ⟨flags, width, none, none⟩ = .width := by
  simp [position, hne]

theorem position_precision (hne : digits ≠ []) : position ⟨flags, width, some digits, none⟩ = .precision := by
  cases digits with
  | nil => exact absurd rfl hne
  | cons => rfl

/-- Two letters are a whole modifier, and behind one letter another may follow. -/
private theorem position_length (modifier : LengthModifier) :
    position ⟨flags, width, precision, some modifier⟩ = .complete ∨
      position ⟨flags, width, precision, some modifier⟩ = .length modifier := by
  cases modifier <;> simp [position]

theorem position_letter {c : Char} {modifier : LengthModifier} (h : LengthModifier.ofChar? c = some modifier) :
    position ⟨flags, width, precision, some modifier⟩ = .length modifier := by
  unfold LengthModifier.ofChar? at h
  split at h <;> cases h <;> rfl

theorem position_join {first second joined : LengthModifier} (h : first.join? second = some joined) :
    position ⟨flags, width, precision, some first⟩ = .length first ∧
      position ⟨flags, width, precision, some joined⟩ = .complete := by
  unfold LengthModifier.join? at h
  split at h <;> cases h <;> exact ⟨rfl, rfl⟩

end Position

@[simp] theorem number?_concat (digits : List (Fin 10)) (d : Fin 10) :
    number? (digits ++ [d]) = some (UInt32.ofNat (Decimal.valueFrom 0 (digits ++ [d]))) := by
  simp [number?]

private theorem number?_singleton (d : Fin 10) : number? [d] = some (UInt32.ofNat d) := by
  simp [number?, Decimal.valueFrom]

theorem field_clause {stem : Stem} (hp : stem.precision ≠ some []) (conversion : Conversion) :
    (stem.clause conversion).field = stem.field := by
  obtain ⟨flags, width, precision, length⟩ := stem
  cases precision with
  | none => rfl
  | some digits =>
    cases digits with
    | nil => exact absurd rfl hp
    | cons d digits => rfl

end Stem

theorem Span.between_of_le {start stop : Nat} (h : start ≤ stop) : between start stop = .ok ⟨start, stop⟩ :=
  if_neg (Nat.not_lt_of_le h)

namespace Scanner

variable {scanner : Scanner} {offset : Nat}

private theorem step_flag (h : scanner.position = .opened ∨ scanner.position = .flags) (flag : Flag) :
    scanner.step offset flag.char = scanner.takeFlag flag offset := by
  rcases h with h | h <;> unfold step <;> rw [h] <;> cases flag <;> rfl

private theorem step_first_digit (h : scanner.position = .opened ∨ scanner.position = .flags)
    {d : Fin 10} (hd : d ≠ 0) : scanner.step offset (Decimal.digitChar d) =
      scanner.proceed .width { scanner.field with width := some (UInt32.ofNat d) } := by
  rcases h with h | h <;> simp [step, h]

/-- A digit is appended if 32 bits hold the longer number. -/
theorem appendDigit_eq (number : Option UInt32) (d : Fin 10) (offset : Nat) :
    appendDigit number d offset =
      if (number.getD 0).toNat * 10 + d < UInt32.size
      then .ok (UInt32.ofNat ((number.getD 0).toNat * 10 + d))
      else .error (.format (.numericOverflow offset)) := by
  unfold appendDigit
  by_cases fits : (number.getD 0).toNat * 10 + d < UInt32.size
  · rw [if_pos fits, Decimal.push?_eq_some_iff.mpr ⟨fits, rfl⟩]
  · rw [if_neg fits, Decimal.push?_eq_none_iff.mpr (Nat.le_of_not_lt fits)]

/-- A digit appended to a number that other digits have written. -/
private theorem appendDigit_number? {digits : List (Fin 10)} (hne : digits ≠ [])
    (small : Decimal.valueFrom 0 digits < UInt32.size) (d : Fin 10) (offset : Nat) :
    appendDigit (Stem.number? digits) d offset =
      if Decimal.valueFrom 0 (digits ++ [d]) < UInt32.size
      then .ok (UInt32.ofNat (Decimal.valueFrom 0 (digits ++ [d])))
      else .error (.format (.numericOverflow offset)) := by
  have held : ((Stem.number? digits).getD 0).toNat = Decimal.valueFrom 0 digits := by
    simp [Stem.number?, hne, UInt32.toNat_ofNat_of_lt' small]
  rw [appendDigit_eq, held, Decimal.valueFrom_concat]

/-- The bytes of a specifier begin where its clause began. -/
theorem close_of_le (conversion : Conversion) {stop : Nat} (h : scanner.clauseStart ≤ stop) :
    scanner.close conversion stop =
      .ok (.specifier ⟨scanner.field, conversion, ⟨scanner.clauseStart, stop⟩⟩,
        ⟨.outside, .empty, scanner.clauseStart⟩) := by
  rw [close, Span.between_of_le h]
  rfl

theorem close_of_lt (conversion : Conversion) {stop : Nat} (h : stop < scanner.clauseStart) :
    scanner.close conversion stop = .error (.fault (.invertedSpan scanner.clauseStart stop)) := by
  simp [close, Span.between, h, Result.ofFault, bind, Except.bind]

end Scanner

namespace Stem

section Growth

variable {flags : List Flag} {width digits : List (Fin 10)} {precision : Option (List (Fin 10))} {c : Char}

private theorem grow_flag {flag : Flag} (fresh : flag ∉ flags) (start offset : Nat) :
    (scanner ⟨flags, [], none, none⟩ start).step offset flag.char =
      .ok (.pending, scanner ⟨flags ++ [flag], [], none, none⟩ start) := by
  have unset : (FlagSet.ofList flags).contains flag = false := by simpa using fresh
  have behind : position ⟨flags ++ [flag], [], none, none⟩ = .flags := by simp [position]
  rw [Scanner.step_flag (position_flags flags)]
  simp [Scanner.takeFlag, scanner, field, FlagSet.insertNew?, unset, Scanner.proceed, behind,
    FlagSet.ofList_concat]

private theorem grow_width {d : Fin 10} (small : Decimal.valueFrom 0 width < UInt32.size)
    (head : width = [] → d ≠ 0) (fits : Decimal.valueFrom 0 (width ++ [d]) < UInt32.size) (start offset : Nat) :
    (scanner ⟨flags, width, none, none⟩ start).step offset (Decimal.digitChar d) =
      .ok (.pending, scanner ⟨flags, width ++ [d], none, none⟩ start) := by
  have behind : position ⟨flags, width ++ [d], none, none⟩ = .width := position_width (by simp)
  by_cases first : width = []
  · subst first
    rw [Scanner.step_first_digit (position_flags flags) (head rfl)]
    simp [Scanner.proceed, scanner, field, number?_singleton, position]
  · have place : position ⟨flags, width, none, none⟩ = .width := position_width first
    have append := Scanner.appendDigit_number? first small d offset
    rw [if_pos fits] at append
    simp [Scanner.step, scanner, place, field, behind, append, Scanner.proceed, bind, Except.bind]

private theorem grow_dot (start offset : Nat) :
    (scanner ⟨flags, width, none, none⟩ start).step offset '.' =
      .ok (.pending, scanner ⟨flags, width, some [], none⟩ start) := by
  have behind : position ⟨flags, width, some [], none⟩ = .dot := rfl
  by_cases none : width = []
  · subst none
    rcases position_flags flags with place | place <;>
      simp [Scanner.step, scanner, place, behind, Scanner.proceed, field, number?]
  · simp [Scanner.step, scanner, position_width none, behind, Scanner.proceed, field, number?]

private theorem grow_precision {d : Fin 10} (small : Decimal.valueFrom 0 digits < UInt32.size)
    (fits : Decimal.valueFrom 0 (digits ++ [d]) < UInt32.size) (start offset : Nat) :
    (scanner ⟨flags, width, some digits, none⟩ start).step offset (Decimal.digitChar d) =
      .ok (.pending, scanner ⟨flags, width, some (digits ++ [d]), none⟩ start) := by
  cases digits with
  | nil => simp [Scanner.step, scanner, position, Scanner.proceed, field, number?_singleton]
  | cons first rest =>
    have append := Scanner.appendDigit_number? (List.cons_ne_nil first rest) small d offset
    rw [if_pos fits] at append
    rw [scanner, scanner, field, field, Option.bind_some, Option.bind_some, number?_concat]
    simp [Scanner.step, position, append, Scanner.proceed, bind, Except.bind]

private theorem grow_length {modifier : LengthModifier} (digit : precision ≠ some [])
    (letter : LengthModifier.ofChar? c = some modifier) (start offset : Nat) :
    (scanner ⟨flags, width, precision, none⟩ start).step offset c =
      .ok (.pending, scanner ⟨flags, width, precision, some modifier⟩ start) := by
  have symbol := Symbol.ofChar_of_length letter
  have behind : position ⟨flags, width, precision, some modifier⟩ = .length modifier := position_letter letter
  cases precision with
  | none =>
    by_cases none : width = []
    · subst none
      rcases position_flags flags with place | place <;>
        simp [Scanner.step, scanner, place, symbol, behind, Scanner.proceed, field]
    · simp [Scanner.step, scanner, position_width none, symbol, behind, Scanner.proceed, field]
  | some digits =>
    have place : position ⟨flags, width, some digits, none⟩ = .precision :=
      position_precision fun empty => digit (by rw [empty])
    simp [Scanner.step, scanner, place, symbol, behind, Scanner.proceed, field]

private theorem grow_double {first second joined : LengthModifier}
    (letter : LengthModifier.ofChar? c = some second) (join : first.join? second = some joined) (start offset : Nat) :
    (scanner ⟨flags, width, precision, some first⟩ start).step offset c =
      .ok (.pending, scanner ⟨flags, width, precision, some joined⟩ start) := by
  have symbol := Symbol.ofChar_of_length letter
  have place : position ⟨flags, width, precision, some first⟩ = .length first := (position_join join).1
  have behind : position ⟨flags, width, precision, some joined⟩ = .complete := (position_join join).2
  simp [Scanner.step, scanner, place, symbol, behind, Scanner.proceed, field, join]

end Growth

/-- A character by which the stem grows is taken as part of the clause. -/
theorem Grows.step {stem next : Stem} {c : Char} (h : Grows stem c next) (hs : stem.Legal)
    (start offset : Nat) :
    (stem.scanner start).step offset c = .ok (.pending, next.scanner start) := by
  cases h with
  | flag fresh => exact grow_flag fresh start offset
  | width head fits => exact grow_width hs.width_lt head fits start offset
  | dot => exact grow_dot start offset
  | precision fits => exact grow_precision (hs.precision_lt _ rfl) fits start offset
  | length digit letter => exact grow_length digit letter start offset
  | double letter join => exact grow_double letter join start offset

/-- The digits of the number that the stem ends in. -/
def digits (stem : Stem) : List (Fin 10) :=
  match stem.length with
  | none => stem.precision.getD stem.width
  | some _ => []

/-- The fault of a character that may not stand behind the stem. A dot without digits comes before
everything else, then a repeated flag, then a number beyond 32 bits, then what the character is. -/
def refusal (stem : Stem) (c : Char) (offset : Nat) : FormatError :=
  if stem.precision = some [] then .missingPrecision offset
  else if stem = ⟨stem.flags, [], none, none⟩ ∧ c ∈ stem.flags.map Flag.char then .invalidFlag c offset
  else if (Decimal.digit? c).any fun d => UInt32.size ≤ Decimal.valueFrom 0 (stem.digits ++ [d]) then
    .numericOverflow offset
  else if c = 'n' then .noEquivalent c offset
  else if c.isAlpha ∧ LengthModifier.ofChar? c = none ∧ Conversion.ofChar? c = none then
    .unknownConversion c offset
  else .invalidCharacter c stem.position offset

/-- The fault by classes of characters, where neither a digit is missing nor a flag repeated. -/
private theorem refusal_eq {stem : Stem} {c : Char} (hp : stem.precision ≠ some [])
    (hf : ¬ (stem = ⟨stem.flags, [], none, none⟩ ∧ c ∈ stem.flags.map Flag.char)) (offset : Nat) :
    stem.refusal c offset =
      match Symbol.ofChar c with
      | .digit d =>
        if UInt32.size ≤ Decimal.valueFrom 0 (stem.digits ++ [d]) then .numericOverflow offset
        else .invalidCharacter c stem.position offset
      | .noEquivalent => .noEquivalent c offset
      | .letter => .unknownConversion c offset
      | _ => .invalidCharacter c stem.position offset := by
  rw [refusal, if_neg hp, if_neg hf]
  have letter := Symbol.ofChar_eq_letter_iff (c := c)
  have noEquivalent := Symbol.ofChar_eq_noEquivalent_iff (c := c)
  have digit (d : Fin 10) := Symbol.ofChar_eq_digit_iff (c := c) (d := d)
  have none_of (h : ∀ d, Symbol.ofChar c ≠ .digit d) : Decimal.digit? c = none := by
    apply Option.eq_none_iff_forall_ne_some.mpr
    intro d hd
    exact h d ((digit d).mpr hd)
  cases hs : Symbol.ofChar c with
  | digit d =>
    have value := (digit d).mp hs
    have hn : c ≠ 'n' := fun h => by simp [noEquivalent.mpr h] at hs
    have hl : ¬ (c.isAlpha ∧ LengthModifier.ofChar? c = none ∧ Conversion.ofChar? c = none) :=
      fun ⟨ha, hm, hc⟩ => by simp [letter.mpr ⟨ha, hm, hc, hn⟩] at hs
    simp [value, hn, hl]
  | noEquivalent =>
    rw [none_of (by simp [hs])]
    simp [noEquivalent.mp hs]
  | letter =>
    obtain ⟨alpha, length, conversion, hn⟩ := letter.mp hs
    simp [none_of (by simp [hs]), alpha, length, conversion, hn]
  | _ =>
    have hn : c ≠ 'n' := fun h => by simp [noEquivalent.mpr h] at hs
    have hl : ¬ (c.isAlpha ∧ LengthModifier.ofChar? c = none ∧ Conversion.ofChar? c = none) :=
      fun ⟨ha, hm, hc⟩ => by simp [letter.mpr ⟨ha, hm, hc, hn⟩] at hs
    simp [none_of (by simp [hs]), hn, hl]

/-- The second percent sign of an escape. -/
theorem step_percent (start offset : Nat) :
    (opened.scanner start).step offset '%' = .ok (.percent, ⟨.outside, .empty, start⟩) := rfl

/-- A conversion ends every clause that does not want a digit. -/
theorem step_close {stem : Stem} (hp : stem.precision ≠ some []) (conversion : Conversion) (start offset : Nat) :
    (stem.scanner start).step offset conversion.char =
      (stem.scanner start).close conversion (offset + conversion.char.utf8Size) := by
  have held : (stem.scanner start).position = stem.position := rfl
  unfold Scanner.step
  rw [held, Symbol.ofChar_conversionChar]
  cases place : stem.position with
  | outside => exact absurd place (position_ne_outside stem)
  | dot => exact absurd place (position_ne_dot hp)
  | _ => rfl

/-- The conversion that finishes a clause, which spans from its percent sign on. -/
theorem step_conversion {stem : Stem} (hp : stem.precision ≠ some []) (conversion : Conversion)
    {start offset : Nat} (h : start ≤ offset) :
    (stem.scanner start).step offset conversion.char =
      .ok (.specifier ⟨stem.field, conversion, ⟨start, offset + conversion.char.utf8Size⟩⟩,
        ⟨.outside, .empty, start⟩) := by
  have ordered : start ≤ offset + conversion.char.utf8Size := Nat.le_add_right_of_le h
  rw [step_close hp, Scanner.close_of_le conversion ordered]
  rfl

section Refusal

variable {flags : List Flag} {width digits : List (Fin 10)} {precision : Option (List (Fin 10))} {c : Char}

private theorem refused_dot (h : ¬ Accepts ⟨flags, width, some [], none⟩ c) (start offset : Nat) :
    (scanner ⟨flags, width, some [], none⟩ start).step offset c =
      .error (.format (.missingPrecision offset)) := by
  have held : (scanner ⟨flags, width, some [], none⟩ start).position = .dot := rfl
  have described := Symbol.describes_ofChar c
  unfold Scanner.step
  rw [held]
  cases hc : Symbol.ofChar c with
  | digit d =>
    rw [hc] at described
    subst described
    exact absurd (.inl ⟨_, .precision (Decimal.valueFrom_singleton_lt d)⟩) h
  | _ => rfl

private theorem refused_flag {flag : Flag} (old : flag ∈ flags) (start offset : Nat) :
    (scanner ⟨flags, [], none, none⟩ start).step offset flag.char =
      .error (.format (.invalidFlag flag.char offset)) := by
  rw [Scanner.step_flag (position_flags flags)]
  simp [Scanner.takeFlag, scanner, field, FlagSet.insertNew?, old]

private theorem refused_flags (h : ¬ Accepts ⟨flags, [], none, none⟩ c)
    (new : c ∉ flags.map Flag.char) (start offset : Nat) :
    (scanner ⟨flags, [], none, none⟩ start).step offset c =
      .error (.format (refusal ⟨flags, [], none, none⟩ c offset)) := by
  have fresh (flag : Flag) (hc : c = flag.char) : flag ∉ flags :=
    fun old => new (hc ▸ List.mem_map_of_mem old)
  have grows (next : Stem) : ¬ Grows ⟨flags, [], none, none⟩ c next := fun hg => h (.inl ⟨next, hg⟩)
  have described := Symbol.describes_ofChar c
  rw [refusal_eq (by simp) (fun hf => new hf.2)]
  have held : (scanner ⟨flags, [], none, none⟩ start).position = position ⟨flags, [], none, none⟩ := rfl
  unfold Scanner.step
  rw [held]
  cases hc : Symbol.ofChar c with
  | digit d =>
    rw [hc] at described
    subst described
    by_cases zero : d = 0
    · subst zero
      exact absurd (.flag (fresh .zero rfl)) (grows _)
    · exact absurd (.width (fun _ => zero) (Decimal.valueFrom_singleton_lt d)) (grows _)
  | flag sign =>
    rw [hc] at described
    obtain ⟨rfl, -⟩ := described
    exact absurd (.flag (fresh sign rfl)) (grows _)
  | length modifier =>
    rw [hc] at described
    exact absurd (.length (by simp) described) (grows _)
  | dot =>
    rw [hc] at described
    subst described
    exact absurd .dot (grows _)
  | conversion found =>
    rw [hc] at described
    exact absurd (.inr (.inl ⟨by simp, found, described⟩)) h
  | percent =>
    rw [hc] at described
    subst described
    cases flags with
    | nil => exact absurd (.inr (.inr ⟨rfl, rfl⟩)) h
    | cons => rfl
  | _ => rcases position_flags flags with place | place <;> rw [place]

private theorem refused_width (hne : width ≠ []) (small : Decimal.valueFrom 0 width < UInt32.size)
    (h : ¬ Accepts ⟨flags, width, none, none⟩ c) (start offset : Nat) :
    (scanner ⟨flags, width, none, none⟩ start).step offset c =
      .error (.format (refusal ⟨flags, width, none, none⟩ c offset)) := by
  have grows (next : Stem) : ¬ Grows ⟨flags, width, none, none⟩ c next := fun hg => h (.inl ⟨next, hg⟩)
  have described := Symbol.describes_ofChar c
  have place : position ⟨flags, width, none, none⟩ = .width := position_width hne
  rw [refusal_eq (by simp) (by simp [hne])]
  have held : (scanner ⟨flags, width, none, none⟩ start).position = .width := place
  have number : (scanner ⟨flags, width, none, none⟩ start).field.width = number? width := rfl
  unfold Scanner.step
  rw [held, place]
  cases hc : Symbol.ofChar c with
  | digit d =>
    rw [hc] at described
    subst described
    have large : ¬ Decimal.valueFrom 0 (width ++ [d]) < UInt32.size :=
      fun fits => grows _ (.width (fun empty => absurd empty hne) fits)
    simp [number, Scanner.appendDigit_number? hne small, large, Nat.le_of_not_lt large, Stem.digits, bind,
      Except.bind]
  | length modifier =>
    rw [hc] at described
    exact absurd (.length (by simp) described) (grows _)
  | dot =>
    rw [hc] at described
    subst described
    exact absurd .dot (grows _)
  | conversion found =>
    rw [hc] at described
    exact absurd (.inr (.inl ⟨by simp, found, described⟩)) h
  | _ => rfl

private theorem refused_precision (hne : digits ≠ []) (small : Decimal.valueFrom 0 digits < UInt32.size)
    (h : ¬ Accepts ⟨flags, width, some digits, none⟩ c) (start offset : Nat) :
    (scanner ⟨flags, width, some digits, none⟩ start).step offset c =
      .error (.format (refusal ⟨flags, width, some digits, none⟩ c offset)) := by
  have grows (next : Stem) : ¬ Grows ⟨flags, width, some digits, none⟩ c next :=
    fun hg => h (.inl ⟨next, hg⟩)
  have described := Symbol.describes_ofChar c
  have place : position ⟨flags, width, some digits, none⟩ = .precision := position_precision hne
  rw [refusal_eq (by simp [hne]) (by simp)]
  have held : (scanner ⟨flags, width, some digits, none⟩ start).position = .precision := place
  have number : (scanner ⟨flags, width, some digits, none⟩ start).field.precision = number? digits := rfl
  unfold Scanner.step
  rw [held, place]
  cases hc : Symbol.ofChar c with
  | digit d =>
    rw [hc] at described
    subst described
    have large : ¬ Decimal.valueFrom 0 (digits ++ [d]) < UInt32.size := fun fits => grows _ (.precision fits)
    simp [number, Scanner.appendDigit_number? hne small, large, Nat.le_of_not_lt large, Stem.digits, bind,
      Except.bind]
  | length modifier =>
    rw [hc] at described
    exact absurd (.length (by simp [hne]) described) (grows _)
  | conversion found =>
    rw [hc] at described
    exact absurd (.inr (.inl ⟨by simp [hne], found, described⟩)) h
  | _ => rfl

private theorem refused_length {modifier : LengthModifier} (hp : precision ≠ some [])
    (h : ¬ Accepts ⟨flags, width, precision, some modifier⟩ c) (start offset : Nat) :
    (scanner ⟨flags, width, precision, some modifier⟩ start).step offset c =
      .error (.format (refusal ⟨flags, width, precision, some modifier⟩ c offset)) := by
  have described := Symbol.describes_ofChar c
  have place : position ⟨flags, width, precision, some modifier⟩ = .complete ∨
      position ⟨flags, width, precision, some modifier⟩ = .length modifier := position_length modifier
  have small (d : Fin 10) : ¬ UInt32.size ≤
      Decimal.valueFrom 0 (Stem.digits ⟨flags, width, precision, some modifier⟩ ++ [d]) :=
    Nat.not_le_of_lt (Decimal.valueFrom_singleton_lt d)
  rw [refusal_eq hp (by simp)]
  have held : (scanner ⟨flags, width, precision, some modifier⟩ start).position =
      position ⟨flags, width, precision, some modifier⟩ := rfl
  unfold Scanner.step
  rw [held]
  cases hc : Symbol.ofChar c with
  | digit d => rcases place with place | place <;> simp only [place, if_neg (small d)]
  | length second =>
    rw [hc] at described
    rcases place with place | place
    · rw [place]
    · have apart : modifier.join? second = none := by
        apply Option.eq_none_iff_forall_ne_some.mpr
        intro joined hj
        exact h (.inl ⟨_, .double described hj⟩)
      simp only [place, apart]
  | conversion found =>
    rw [hc] at described
    exact absurd (.inr (.inl ⟨hp, found, described⟩)) h
  | _ => rcases place with place | place <;> rw [place]

end Refusal

/-- A character that may not stand behind the stem is refused with its fault. -/
theorem step_refusal {stem : Stem} {c : Char} (hs : stem.Legal) (h : ¬ stem.Accepts c)
    (start offset : Nat) :
    (stem.scanner start).step offset c = .error (.format (stem.refusal c offset)) := by
  obtain ⟨flags, width, precision, length⟩ := stem
  cases length with
  | some modifier =>
    exact refused_length (fun hp => absurd (hs.length_eq_none hp) (by simp)) h start offset
  | none =>
    cases precision with
    | some digits =>
      by_cases empty : digits = []
      · subst empty
        simpa [refusal] using refused_dot h start offset
      · exact refused_precision empty (hs.precision_lt digits rfl) h start offset
    | none =>
      by_cases empty : width = []
      · subst empty
        by_cases old : c ∈ flags.map Flag.char
        · obtain ⟨flag, member, rfl⟩ := List.mem_map.mp old
          simpa [refusal, old] using refused_flag member start offset
        · exact refused_flags h old start offset
      · exact refused_width empty hs.width_lt h start offset

end Stem

end BraceTemplate
