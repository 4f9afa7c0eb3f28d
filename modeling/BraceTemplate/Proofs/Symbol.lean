import BraceTemplate.Proofs.Decimal
import BraceTemplate.Scanner.Symbol

/-! Which characters make up each class of the grammar. -/
namespace BraceTemplate

theorem Flag.eq_char_of_ofChar? {c : Char} {flag : Flag} (h : Flag.ofChar? c = some flag) :
    c = flag.char := by
  unfold Flag.ofChar? at h
  split at h <;> cases h <;> rfl

theorem Flag.char_injective {f g : Flag} (h : f.char = g.char) : f = g := by
  revert h
  cases f <;> cases g <;> decide

theorem Flag.char_mem_map (flag : Flag) {flags : List Flag} : flag.char ∈ flags.map char ↔ flag ∈ flags := by
  rw [List.mem_map]
  constructor
  · rintro ⟨other, member, same⟩
    exact char_injective same ▸ member
  · exact fun member => ⟨flag, member, rfl⟩

theorem Conversion.eq_char_of_ofChar? {c : Char} {conversion : Conversion}
    (h : Conversion.ofChar? c = some conversion) : c = conversion.char := by
  unfold Conversion.ofChar? at h
  split at h <;> cases h <;> rfl

@[simp] theorem Conversion.ofChar?_char (conversion : Conversion) :
    Conversion.ofChar? conversion.char = some conversion := by
  cases conversion <;> rfl

theorem Conversion.char_ne_percent (conversion : Conversion) : conversion.char ≠ '%' := by
  cases conversion <;> decide

theorem Conversion.char_injective {a b : Conversion} (h : a.char = b.char) : a = b := by
  have := congrArg Conversion.ofChar? h
  simpa using this

namespace LengthModifier

theorem text_of_ofChar? {c : Char} {modifier : LengthModifier} (h : ofChar? c = some modifier) :
    modifier.text.toList = [c] := by
  unfold ofChar? at h
  split at h <;> cases h <;> rfl

theorem text_of_join? {first second joined : LengthModifier} (h : first.join? second = some joined) :
    joined.text.toList = first.text.toList ++ second.text.toList := by
  revert h
  cases first <;> cases second <;> simp [join?] <;> rintro rfl <;> rfl

end LengthModifier

namespace Symbol

@[simp] theorem ofChar_digitChar (d : Fin 10) : ofChar (Decimal.digitChar d) = .digit d := by
  revert d
  decide

theorem ofChar_flagChar (flag : Flag) :
    ofChar flag.char = if flag = .zero then .digit 0 else .flag flag := by
  cases flag <;> decide

@[simp] theorem ofChar_conversionChar (conversion : Conversion) :
    ofChar conversion.char = .conversion conversion := by
  cases conversion <;> rfl

@[simp] theorem ofChar_percent : ofChar '%' = .percent := rfl

@[simp] theorem ofChar_dot : ofChar '.' = .dot := rfl

theorem ofChar_of_length {c : Char} {modifier : LengthModifier}
    (h : LengthModifier.ofChar? c = some modifier) : ofChar c = .length modifier := by
  unfold LengthModifier.ofChar? at h
  split at h <;> cases h <;> rfl

/-- What a class says of its characters, read off the order in which the classes are tried. -/
def Describes : Symbol → Char → Prop
  | digit d, c => c = Decimal.digitChar d
  | flag sign, c => c = sign.char ∧ sign ≠ .zero
  | length modifier, c => LengthModifier.ofChar? c = some modifier
  | percent, c => c = '%'
  | dot, c => c = '.'
  | conversion found, c => c = found.char
  | noEquivalent, c => c = 'n'
  | letter, c => c.isAlpha ∧ LengthModifier.ofChar? c = none ∧ Conversion.ofChar? c = none ∧ c ≠ 'n'
  | other, c => c.isAlpha = false ∧ c ≠ '%' ∧ c ≠ '.' ∧ Decimal.digit? c = none ∧ Flag.ofChar? c = none

theorem describes_ofChar (c : Char) : (ofChar c).Describes c := by
  unfold ofChar
  split
  · next hd => exact Decimal.eq_digitChar_of_digit? hd
  · next sign hd hf =>
    have hc := Flag.eq_char_of_ofChar? hf
    refine ⟨hc, ?_⟩
    rintro rfl
    rw [hc] at hd
    cases hd
  · next hl => exact hl
  · next hd hf hl =>
    by_cases percent : c = '%'
    · rw [if_pos percent]
      exact percent
    rw [if_neg percent]
    by_cases dot : c = '.'
    · rw [if_pos dot]
      exact dot
    rw [if_neg dot]
    unfold Conversion.support
    cases hs : Conversion.ofChar? c with
    | some found => exact Conversion.eq_char_of_ofChar? hs
    | none =>
      by_cases n : c = 'n'
      · rw [if_pos n]
        exact n
      · by_cases alpha : c.isAlpha
        · simpa [n, alpha, Describes] using ⟨hl, hs⟩
        · simpa [n, alpha, Describes] using ⟨percent, dot, hd, hf⟩

theorem ofChar_eq_digit_iff {c : Char} {d : Fin 10} : ofChar c = .digit d ↔ Decimal.digit? c = some d := by
  constructor
  · intro h
    have hc : c = Decimal.digitChar d := by simpa [h, Describes] using describes_ofChar c
    rw [hc, Decimal.digit?_digitChar]
  · intro h
    rw [Decimal.eq_digitChar_of_digit? h, ofChar_digitChar]

theorem ofChar_eq_noEquivalent_iff {c : Char} : ofChar c = .noEquivalent ↔ c = 'n' := by
  constructor
  · intro h
    simpa [h, Describes] using describes_ofChar c
  · rintro rfl
    rfl

/-- The letters without a meaning are those that no other class has. -/
theorem ofChar_eq_letter_iff {c : Char} :
    ofChar c = .letter ↔
      c.isAlpha ∧ LengthModifier.ofChar? c = none ∧ Conversion.ofChar? c = none ∧ c ≠ 'n' := by
  constructor
  · intro h
    simpa only [h, Describes] using describes_ofChar c
  · rintro ⟨alpha, length, conversion, n⟩
    have described := describes_ofChar c
    cases hs : ofChar c with
    | letter => rfl
    | digit d =>
      rw [hs] at described
      have numeral : ∀ d : Fin 10, (Decimal.digitChar d).isAlpha = false := by decide
      simp_all [Describes]
    | flag sign =>
      rw [hs] at described
      obtain ⟨rfl, -⟩ := described
      cases sign <;> cases alpha
    | _ => simp_all [Describes]

end Symbol

end BraceTemplate
