import BraceTemplate.Decimal
import Mathlib.Algebra.Group.Nat.Defs
import Mathlib.Data.List.Basic
import Mathlib.Data.List.Induction

/-! Decimal spelling as a theory of digit sequences: the writer produces the positional numeral,
and a spelling without leading zeros is the numeral of its value. -/
namespace BraceTemplate.Decimal

theorem digitChar_eq (d : Nat) (h : d < 10) : digitChar d = Nat.digitChar d := by
  have table : ∀ d : Fin 10, digitChar d.val = Nat.digitChar d.val := by decide
  exact table ⟨d, h⟩

@[simp] theorem digit?_digitChar (d : Fin 10) : digit? (digitChar d) = some d := by
  revert d
  decide

theorem eq_digitChar_of_digit? {c : Char} {d : Fin 10} (h : digit? c = some d) : c = digitChar d := by
  unfold digit? at h
  split at h
  · next bounds =>
    obtain ⟨low, high⟩ := bounds
    simp only [Option.some.injEq] at h
    subst h
    have zero : '0'.toNat = 48 := rfl
    apply Char.toNat_inj.mp
    rw [digitChar_eq _ high, Nat.toNat_digitChar_of_lt_ten high]
    omega
  · cases h

theorem utf8Size_digitChar (d : Fin 10) : (digitChar d).utf8Size = 1 := by
  revert d
  decide

theorem isDigit_digitChar (d : Fin 10) : (digitChar d).isDigit := by
  revert d
  decide

/-- A run of places writes the numeral in front of what stands there already. -/
private theorem fill_eq {places n : Nat} (written : List Char) (h : n < 10 ^ places) (hp : 0 < places) :
    fill places n written = some (Nat.toDigits 10 n ++ written) := by
  induction places generalizing n written with
  | zero => omega
  | succ places ih =>
    rw [fill, digitChar_eq _ (Nat.mod_lt n (by decide))]
    by_cases small : n / 10 = 0
    · have hn : n < 10 := by omega
      rw [if_pos small, Nat.mod_eq_of_lt hn, Nat.toDigits_of_lt_base hn]
      rfl
    · have fits : n / 10 < 10 ^ places := by
        rw [Nat.pow_succ] at h
        omega
      have room : 0 < places := by
        apply Nat.pos_of_ne_zero
        rintro rfl
        rw [Nat.pow_zero] at fits
        omega
      rw [if_neg small, ih _ fits room, Nat.toDigits_of_base_le (by decide) (show 10 ≤ n by omega)]
      simp

theorem digits_eq_toDigits (n : Nat) : digits n = Nat.toDigits 10 n := by
  have h : n < 10 ^ (n + 1) :=
    Nat.lt_of_lt_of_le (Nat.lt_pow_self (by decide)) (Nat.pow_le_pow_right (by decide) (Nat.le_succ n))
  simp [digits, fill_eq [] h (Nat.succ_pos n)]

/-- Ten places lose nothing: the writer of 32-bit numbers agrees with the unbounded one. -/
theorem digits32_eq_toDigits (n : UInt32) : digits32 n = Nat.toDigits 10 n.toNat := by
  have h : n.toNat < 10 ^ 10 := Nat.lt_trans n.toNat_lt (by decide)
  simp [digits32, fill_eq [] h (by decide)]

theorem digits32_ofNat {n : Nat} (h : n < UInt32.size) : digits32 (UInt32.ofNat n) = digits n := by
  rw [digits32_eq_toDigits, digits_eq_toDigits, UInt32.toNat_ofNat_of_lt' h]

@[simp] theorem spell_nil : spell [] = [] := rfl

@[simp] theorem spell_cons (d : Fin 10) (ds : List (Fin 10)) :
    spell (d :: ds) = digitChar d :: spell ds := rfl

@[simp] theorem spell_append (ds es : List (Fin 10)) : spell (ds ++ es) = spell ds ++ spell es :=
  List.map_append

@[simp] theorem length_spell (ds : List (Fin 10)) : (spell ds).length = ds.length :=
  List.length_map _

theorem mapM_digit?_spell (digits : List (Fin 10)) : (spell digits).mapM digit? = some digits := by
  induction digits with
  | nil => rfl
  | cons d digits ih => simp [ih]

theorem valueFrom_append (n : Nat) (ds es : List (Fin 10)) :
    valueFrom n (ds ++ es) = valueFrom (valueFrom n ds) es := by
  induction ds generalizing n with
  | nil => rfl
  | cons d ds ih => exact ih _

theorem valueFrom_concat (n : Nat) (ds : List (Fin 10)) (d : Fin 10) :
    valueFrom n (ds ++ [d]) = valueFrom n ds * 10 + d := by
  rw [valueFrom_append]
  rfl

theorem le_valueFrom (n : Nat) (ds : List (Fin 10)) : n ≤ valueFrom n ds := by
  induction ds generalizing n with
  | nil => exact Nat.le_refl n
  | cons d ds ih => exact Nat.le_trans (by omega) (ih _)

theorem valueFrom_le_append (n : Nat) (ds es : List (Fin 10)) :
    valueFrom n ds ≤ valueFrom n (ds ++ es) := by
  rw [valueFrom_append]
  exact le_valueFrom _ es

theorem valueFrom_singleton_lt (d : Fin 10) : valueFrom 0 [d] < UInt32.size := by
  have digit := d.isLt
  rw [valueFrom, valueFrom, UInt32.size]
  omega

private theorem valueFrom_lt_pow (ds : List (Fin 10)) : valueFrom 0 ds < 10 ^ ds.length := by
  induction ds using List.reverseRecOn with
  | nil => decide
  | append_singleton ds d ih =>
    rw [valueFrom_concat, List.length_append, List.length_singleton, Nat.pow_succ]
    omega

theorem valueFrom_pos {ds : List (Fin 10)} (hne : ds ≠ []) (head : ds.head? ≠ some 0) :
    0 < valueFrom 0 ds := by
  cases ds with
  | nil => exact absurd rfl hne
  | cons d ds =>
    have hd : d.val ≠ 0 := fun h => head (by simp [Fin.ext_iff, h])
    have := le_valueFrom (0 * 10 + d) ds
    rw [valueFrom]
    omega

/-- Digits that do not begin with zero are the numeral of their value, digit for digit. -/
theorem digits_valueFrom {ds : List (Fin 10)} (hne : ds ≠ []) (head : ds.head? ≠ some 0) :
    digits (valueFrom 0 ds) = spell ds := by
  rw [digits_eq_toDigits]
  induction ds using List.reverseRecOn with
  | nil => exact absurd rfl hne
  | append_singleton ds d ih =>
    rw [valueFrom_concat, spell_append, spell_cons, spell_nil, digitChar_eq _ d.isLt]
    by_cases empty : ds = []
    · subst empty
      simp [valueFrom, Nat.toDigits_of_lt_base d.isLt]
    · have head' : ds.head? ≠ some 0 := by rwa [List.head?_append_of_ne_nil _ empty] at head
      rw [← ih empty head', Nat.mul_comm,
        ← Nat.toDigits_append_toDigits (by decide) (valueFrom_pos empty head') d.isLt,
        Nat.toDigits_of_lt_base d.isLt]

/-- The numeral of a value is never longer than a spelling of it. -/
theorem length_digits_valueFrom_le {ds : List (Fin 10)} (hne : ds ≠ []) :
    (digits (valueFrom 0 ds)).length ≤ ds.length := by
  rw [digits_eq_toDigits, Nat.length_toDigits_le_iff (by decide) (List.length_pos_iff.mpr hne)]
  exact valueFrom_lt_pow ds

/-- Every numeral is a spelling of its number, and only that of zero begins with a zero. -/
theorem exists_spell_digits (n : Nat) :
    ∃ ds, digits n = spell ds ∧ valueFrom 0 ds = n ∧ (n ≠ 0 → ds.head? ≠ some 0) := by
  induction n using Nat.strongRecOn with
  | ind n ih =>
    rw [digits_eq_toDigits]
    by_cases small : n < 10
    · refine ⟨[⟨n, small⟩], ?_, by simp [valueFrom], by simp [Fin.ext_iff]⟩
      rw [Nat.toDigits_of_lt_base small, ← digitChar_eq n small]
      rfl
    · obtain ⟨ds, spelled, value, head⟩ := ih (n / 10) (by omega)
      have last : n % 10 < 10 := Nat.mod_lt n (by decide)
      have front : n / 10 ≠ 0 := by omega
      have hne : ds ≠ [] := by
        rintro rfl
        exact front value.symm
      refine ⟨ds ++ [⟨n % 10, last⟩], ?_, ?_, ?_⟩
      · rw [Nat.toDigits_of_base_le (by decide) (Nat.le_of_not_lt small), ← digits_eq_toDigits, spelled,
          spell_append, ← digitChar_eq _ last]
        rfl
      · rw [valueFrom_concat, value]
        exact Nat.div_add_mod' n 10
      · intro _
        rw [List.head?_append_of_ne_nil _ hne]
        exact head front

theorem spell_replicate_zero (zeros : Nat) : spell (List.replicate zeros 0) = List.replicate zeros '0' :=
  List.map_replicate

theorem valueFrom_replicate_zero (zeros : Nat) (ds : List (Fin 10)) :
    valueFrom 0 (List.replicate zeros 0 ++ ds) = valueFrom 0 ds := by
  induction zeros with
  | zero => rfl
  | succ zeros ih =>
    rw [List.replicate_succ, List.cons_append, valueFrom]
    exact ih

/-- The digits are the same but for zeros in front. -/
inductive Padded : List (Fin 10) → List (Fin 10) → Prop where
  | intro (zeros others : Nat) (digits : List (Fin 10)) :
    Padded (List.replicate zeros 0 ++ digits) (List.replicate others 0 ++ digits)

theorem Padded.valueFrom_eq {ds es : List (Fin 10)} (h : Padded ds es) : valueFrom 0 ds = valueFrom 0 es := by
  cases h with
  | intro => rw [valueFrom_replicate_zero, valueFrom_replicate_zero]

/-- A spelling is the numeral of its value behind superfluous zeros. -/
theorem exists_zeros {ds : List (Fin 10)} (hne : ds ≠ []) :
    ∃ zeros, spell ds = List.replicate zeros '0' ++ digits (valueFrom 0 ds) := by
  induction ds with
  | nil => exact absurd rfl hne
  | cons d ds ih =>
    by_cases lead : d = 0
    · subst lead
      by_cases last : ds = []
      · subst last
        exact ⟨0, rfl⟩
      · obtain ⟨zeros, spelled⟩ := ih last
        refine ⟨zeros + 1, ?_⟩
        rw [spell_cons, spelled]
        rfl
    · refine ⟨0, ?_⟩
      rw [digits_valueFrom hne (by simpa using lead)]
      rfl

theorem digits_subset (n : Nat) : digits n ⊆ "0123456789".toList := by
  have table : ∀ d : Fin 10, digitChar d ∈ "0123456789".toList := by decide
  obtain ⟨ds, spelled, -⟩ := exists_spell_digits n
  rw [spelled]
  intro c member
  obtain ⟨d, -, rfl⟩ := List.mem_map.mp member
  exact table d

theorem digits32_eq_digits (n : UInt32) : digits32 n = digits n.toNat := by
  rw [digits32_eq_toDigits, digits_eq_toDigits]

theorem digits32_ne_nil (n : UInt32) : digits32 n ≠ [] := by
  rw [digits32_eq_toDigits]
  exact Nat.toDigits_ne_nil

theorem push?_eq_some_iff {n m : UInt32} {d : Fin 10} :
    push? n d = some m ↔ n.toNat * 10 + d < UInt32.size ∧ m = UInt32.ofNat (n.toNat * 10 + d) := by
  unfold push?
  by_cases fits : n.toNat * 10 + d < UInt32.size
  · simp [fits, eq_comm]
  · simp [fits]

theorem push?_eq_none_iff {n : UInt32} {d : Fin 10} :
    push? n d = none ↔ UInt32.size ≤ n.toNat * 10 + d := by
  unfold push?
  by_cases fits : n.toNat * 10 + d < UInt32.size
  · simp [fits]
  · simp only [fits, if_false, true_iff]
    omega

end BraceTemplate.Decimal
