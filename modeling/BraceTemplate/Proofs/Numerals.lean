import BraceTemplate.Decimal.Word
import BraceTemplate.Proofs.Transcode
import BraceTemplate.Sink.Charwise

/-! Numbers between their digits and 32 bits. The writer never leaves its ten places and writes the canonical digits of
a number, and digits that are read one after the other give their value exactly, up to the first digit with which
it is too large. -/
namespace BraceTemplate

namespace Decimal

/-- The digits write `n`, and they begin with zero only if that is all of them. -/
structure Canonical (n : Nat) (digits : List (Fin 10)) : Prop where
  ne_nil : digits ≠ []
  value : valueFrom 0 digits = n
  head : digits.head? = some 0 → digits = [0]

theorem spell_injective {ds es : List (Fin 10)} (h : spell ds = spell es) : ds = es := by
  have read := congrArg (List.mapM digit?) h
  rwa [mapM_digit?_spell, mapM_digit?_spell, Option.some.injEq] at read

/-- A number has one canonical spelling, its numeral. -/
theorem canonical_iff {n : Nat} {ds : List (Fin 10)} : Canonical n ds ↔ digits n = spell ds := by
  constructor
  · rintro ⟨ne_nil, rfl, head⟩
    by_cases zero : ds.head? = some 0
    · rw [head zero]
      rfl
    · exact digits_valueFrom ne_nil zero
  · intro spelled
    obtain ⟨es, written, value, head⟩ := exists_spell_digits n
    obtain rfl := spell_injective (spelled.symm.trans written)
    refine ⟨?_, value, ?_⟩
    · rintro rfl
      rw [digits_eq_toDigits] at spelled
      exact Nat.toDigits_ne_nil spelled
    · intro zero
      obtain rfl : n = 0 := by
        by_contra positive
        exact head positive zero
      exact spell_injective spelled.symm

namespace Places

variable {size : Nat}

/-- The byte that is put into a place is the last digit. -/
private theorem ofUInt8_digit (n : UInt32) : Char.ofUInt8 (48 + (n % 10).toUInt8) = digitChar (n.toNat % 10) := by
  have table : ∀ d : Fin 10, Char.ofUInt8 (48 + UInt8.ofNat d) = digitChar d := by decide
  have last : (n % 10).toUInt8 = UInt8.ofNat (n.toNat % 10) := by
    apply UInt8.toNat_inj.mp
    rw [UInt32.toNat_toUInt8, UInt32.toNat_mod, UInt8.toNat_ofNat']
    rfl
  rw [last]
  exact table ⟨n.toNat % 10, Nat.mod_lt _ (by decide)⟩

private theorem chars_put (bytes : Vector UInt8 size) {index : Nat} (inside : index < size) (byte : UInt8) :
    chars ⟨bytes.set index byte, index, Nat.le_of_lt inside⟩ =
      Char.ofUInt8 byte :: chars ⟨bytes, index + 1, inside⟩ := by
  have long : index < (bytes.toList.set index byte).length := by
    rwa [List.length_set, Vector.length_toList]
  rw [chars, Vector.toList_set, List.drop_eq_getElem_cons long, List.getElem_set_self,
    List.drop_set_of_lt (Nat.lt_succ_self index), List.map_cons]
  rfl

private theorem index_add_length (places : Places size) : places.index + places.chars.length = size := by
  rw [chars, List.length_map, List.length_drop, Vector.length_toList]
  exact Nat.add_sub_of_le places.index_le

/-- Places are filled as digits are put in front of one another in a list, and they run out for both at once. -/
theorem map_chars_putDigits? (places : Places size) (n : UInt32) :
    (places.putDigits? n).map chars = fill places.index n.toNat places.chars := by
  obtain ⟨bytes, index, inside⟩ := places
  -- On the places that are left: what is written is always what stood there before, behind the digits so far.
  induction index generalizing bytes n with
  | zero =>
    rw [putDigits?]
    rfl
  | succ index ih =>
    have quotient : (n / 10).toNat = n.toNat / 10 := UInt32.toNat_div n 10
    have last : n / 10 = 0 ↔ n.toNat / 10 = 0 := by
      rw [← quotient, ← UInt32.toNat_inj]
      rfl
    rw [putDigits?, fill, ← ofUInt8_digit, ← chars_put bytes inside]
    simp only [put?, Option.bind_eq_bind, Option.bind_some, last, ← quotient]
    split
    · rfl
    · exact ih _ _ _

/-- The ten places suffice, and they hold the numeral in the end. -/
private theorem exists_putDigits? (n : UInt32) :
    ∃ places, (blank 10).putDigits? n = some places ∧ places.chars = digits32 n := by
  have filled : ((blank 10).putDigits? n).map chars = some (digits32 n) := by
    rw [map_chars_putDigits?, digits32, Option.some_get]
    rfl
  exact Option.map_eq_some_iff.mp filled

end Places

/-- Put together in place, a number is written digit by digit. -/
theorem writeInPlace_eq {σ : Type} (writeChar : Char → Write σ Unit) (n : UInt32) :
    writeInPlace writeChar n = (digits32 n).forM writeChar := by
  obtain ⟨places, filled, chars⟩ := Places.exists_putDigits? n
  rw [writeInPlace, filled, ← chars]

/-- The two operations are exact together: the number fits if and only if the product does and then the sum. -/
theorem accumulate?_eq_push? (number : Option UInt32) (d : Fin 10) :
    accumulate? number d = push? (number.getD 0) d := by
  rw [accumulate?, push?]
  generalize number.getD 0 = n
  have value : UInt32.ofNat (n.toNat * 10 + d) = n * 10 + UInt32.ofNat d := by
    rw [UInt32.ofNat_add, UInt32.ofNat_mul, UInt32.ofNat_toNat]
    rfl
  have ten : (10 : UInt32).toNat = 10 := rfl
  have digit : (UInt32.ofNat d).toNat = d := UInt32.toNat_ofNat_of_lt' (Nat.lt_trans d.isLt (by decide))
  rw [checkedMul?, ten, value]
  by_cases shifted : n.toNat * 10 < UInt32.size
  · have product : (n * 10).toNat = n.toNat * 10 := by
      rw [UInt32.toNat_mul, ten]
      exact Nat.mod_eq_of_lt shifted
    rw [if_pos shifted, Option.bind_eq_bind, Option.bind_some, checkedAdd?, product, digit]
  · have large : ¬ n.toNat * 10 + d < UInt32.size := by omega
    rw [if_neg shifted]
    exact (if_neg large).symm

/-- The digit at `index` is the first with which the number behind `n` is too large for 32 bits. -/
structure FirstExcess (n : Nat) (digits : List (Fin 10)) (index : Nat) : Prop where
  inside : index < digits.length
  exceeds : UInt32.size ≤ valueFrom n (digits.take (index + 1))
  first : ∀ earlier < index, valueFrom n (digits.take (earlier + 1)) < UInt32.size

namespace FirstExcess

variable {n : Nat} {d : Fin 10} {ds : List (Fin 10)} {index other : Nat}

/-- More digits do not make the number smaller. -/
theorem size_le (h : FirstExcess n ds index) : UInt32.size ≤ valueFrom n ds := by
  have longer := valueFrom_le_append n (ds.take (index + 1)) (ds.drop (index + 1))
  rw [List.take_append_drop] at longer
  exact Nat.le_trans h.exceeds longer

theorem unique (h : FirstExcess n ds index) (g : FirstExcess n ds other) : index = other := by
  apply Nat.le_antisymm
  · exact Nat.le_of_not_lt fun earlier => Nat.not_lt_of_le g.exceeds (h.first other earlier)
  · exact Nat.le_of_not_lt fun earlier => Nat.not_lt_of_le h.exceeds (g.first index earlier)

theorem here (large : UInt32.size ≤ n * 10 + d) : FirstExcess n (d :: ds) 0 :=
  ⟨Nat.succ_pos _, large, nofun⟩

theorem cons (fits : n * 10 + d < UInt32.size) (h : FirstExcess (n * 10 + d) ds index) :
    FirstExcess n (d :: ds) (index + 1) := by
  refine ⟨Nat.succ_lt_succ h.inside, h.exceeds, ?_⟩
  intro earlier before
  cases earlier with
  | zero => exact fits
  | succ earlier => exact h.first earlier (Nat.lt_of_succ_lt_succ before)

end FirstExcess

end Decimal

namespace Scanner

open Decimal

variable {n m : UInt32} {offset : Nat} {d : Fin 10} {ds : List (Fin 10)} {failure : Failure}

/-- The number `n` with digits behind it, the first of which is at byte `offset`. -/
def appendDigits (n : UInt32) (offset : Nat) : List (Fin 10) → Result UInt32
  | [] => .ok n
  | d :: rest => do
    let number ← appendDigit (some n) d offset
    appendDigits number (offset + 1) rest

/-- The number that digits write, the first of which is at byte `offset`. That one is the number to begin with. -/
def readNumber (offset : Nat) (first : Fin 10) (rest : List (Fin 10)) : Result UInt32 :=
  appendDigits (UInt32.ofNat first) (offset + 1) rest

private theorem appendDigit_eq_accumulate? (number : Option UInt32) (d : Fin 10) (offset : Nat) :
    appendDigit number d offset = (accumulate? number d).elim (.error (.format (.numericOverflow offset))) .ok := by
  rw [appendDigit, accumulate?_eq_push?]
  cases push? (number.getD 0) d <;> rfl

private theorem exists_appendDigit_of_lt (fits : n.toNat * 10 + d < UInt32.size) (offset : Nat) :
    ∃ m, appendDigit (some n) d offset = .ok m ∧ m.toNat = n.toNat * 10 + d := by
  refine ⟨UInt32.ofNat (n.toNat * 10 + d), ?_, UInt32.toNat_ofNat_of_lt' fits⟩
  rw [appendDigit_eq, Option.getD_some, if_pos fits]

/-- Either the number fits with all digits, or there is a first one with which it does not. -/
theorem appendDigits_cases (n : UInt32) (offset : Nat) (ds : List (Fin 10)) :
    (∃ m, appendDigits n offset ds = .ok m ∧ m.toNat = valueFrom n.toNat ds) ∨
      ∃ index, FirstExcess n.toNat ds index ∧
        appendDigits n offset ds = .error (.format (.numericOverflow (offset + index))) := by
  induction ds generalizing n offset with
  | nil => exact .inl ⟨n, rfl, rfl⟩
  | cons d ds ih =>
    rw [appendDigits]
    rcases Nat.lt_or_ge (n.toNat * 10 + d) UInt32.size with fits | large
    · obtain ⟨m, appended, value⟩ := exists_appendDigit_of_lt fits offset
      rw [appended]
      rcases ih m (offset + 1) with ⟨last, read, same⟩ | ⟨index, excess, refused⟩
      · rw [value] at same
        exact .inl ⟨last, read, same⟩
      · rw [value] at excess
        rw [Nat.add_assoc, Nat.add_comm 1] at refused
        exact .inr ⟨index + 1, excess.cons fits, refused⟩
    · rw [appendDigit_eq, Option.getD_some, if_neg (Nat.not_lt_of_le large)]
      exact .inr ⟨0, .here large, rfl⟩

private theorem appendDigits_eq_ok_iff : appendDigits n offset ds = .ok m ↔ valueFrom n.toNat ds = m.toNat := by
  rcases appendDigits_cases n offset ds with ⟨last, read, value⟩ | ⟨index, excess, refused⟩
  · rw [read, ← value, UInt32.toNat_inj]
    exact ⟨Except.ok.inj, congrArg _⟩
  · rw [refused]
    refine iff_of_false nofun ?_
    intro value
    have large := excess.size_le
    have small := m.toNat_lt
    rw [value] at large
    exact Nat.not_lt_of_le large small

private theorem appendDigits_eq_error_iff :
    appendDigits n offset ds = .error failure ↔
      ∃ index, FirstExcess n.toNat ds index ∧ failure = .format (.numericOverflow (offset + index)) := by
  rcases appendDigits_cases n offset ds with ⟨last, read, value⟩ | ⟨index, excess, refused⟩
  · rw [read]
    refine iff_of_false nofun ?_
    rintro ⟨index, excess, -⟩
    have large := excess.size_le
    rw [← value] at large
    exact Nat.not_lt_of_le large last.toNat_lt
  · rw [refused]
    constructor
    · intro same
      exact ⟨index, excess, (Except.error.inj same).symm⟩
    · rintro ⟨other, too, rfl⟩
      rw [excess.unique too]

/-- The first digit is what is left of it behind zero. -/
private theorem readNumber_eq (offset : Nat) (first : Fin 10) (rest : List (Fin 10)) :
    readNumber offset first rest = appendDigits 0 offset (first :: rest) := by
  have table : ∀ d : Fin 10, push? 0 d = some (UInt32.ofNat d) := by decide
  rw [appendDigits, appendDigit, Option.getD_some, table]
  rfl

/-- The scanner behind digits that write the width `n`. -/
def holdingWidth (scanner : Scanner) (n : UInt32) : Scanner :=
  { scanner with position := .width, field := { scanner.field with width := some n } }

/-- The scanner behind digits that write the precision `n`. -/
def holdingPrecision (scanner : Scanner) (n : UInt32) : Scanner :=
  { scanner with position := .precision, field := { scanner.field with precision := some n } }

/-- Digits that a scanner takes by appending them to the number that it holds. -/
def AppendsDigits (holding : UInt32 → Scanner) : Prop :=
  ∀ (n : UInt32) (offset : Nat) (d : Fin 10), (holding n).step offset (digitChar d) =
    (appendDigit (some n) d offset).map fun m => (.pending, holding m)

private theorem appendsDigits_width (scanner : Scanner) : AppendsDigits scanner.holdingWidth := by
  intro n offset d
  unfold step
  rw [Symbol.ofChar_digitChar]
  rfl

private theorem appendsDigits_precision (scanner : Scanner) : AppendsDigits scanner.holdingPrecision := by
  intro n offset d
  unfold step
  rw [Symbol.ofChar_digitChar]
  rfl

/-- Digits behind a number that a scanner holds are all read, or refused as the reading of them is. -/
theorem transcode_digits {σ : Type} [Sink σ] {holding : UInt32 → Scanner} (h : AppendsDigits holding) (n : UInt32)
    (offset : Nat) (ds : List (Fin 10)) (text : List Char) :
    ((holding n).transcode offset (spell ds ++ text) : Write σ Unit) =
      (do let m ← Write.ofResult (appendDigits n offset ds); (holding m).transcode (offset + ds.length) text) := by
  induction ds generalizing n offset with
  | nil => rfl
  | cons d ds ih =>
    have taken := h n offset d
    rw [spell_cons, List.cons_append, appendDigits]
    cases appended : appendDigit (some n) d offset with
    | error failure =>
      rw [appended] at taken
      rw [transcode_error taken]
      rfl
    | ok m =>
      rw [appended] at taken
      rw [transcode_cons taken, utf8Size_digitChar, Step.write, pure_bind, ih, List.length_cons, Nat.add_assoc,
        Nat.add_comm 1]
      rfl

/-- Whatever the destination and the text behind the digits are, the scanner reads the number and goes on with it, or
fails as the reading does. -/
def Reads (scanner : Scanner) (holding : UInt32 → Scanner) (offset : Nat) (first : Fin 10)
    (rest : List (Fin 10)) : Prop :=
  ∀ (σ : Type) [Sink σ] (text : List Char),
    (scanner.transcode offset (spell (first :: rest) ++ text) : Write σ Unit) = (do
      let n ← Write.ofResult (readNumber offset first rest)
      (holding n).transcode (offset + (first :: rest).length) text)

section Paths

variable {scanner : Scanner} {first : Fin 10}

/-- A scanner that stores a first digit and appends the others reads the number that they write. -/
private theorem reads_of_stored {holding : UInt32 → Scanner} (h : AppendsDigits holding)
    (stored : scanner.step offset (digitChar first) = .ok (.pending, holding (UInt32.ofNat first)))
    (rest : List (Fin 10)) : scanner.Reads holding offset first rest := by
  intro σ _ text
  rw [spell_cons, List.cons_append, transcode_cons stored, utf8Size_digitChar, Step.write, pure_bind,
    transcode_digits h, List.length_cons, Nat.add_assoc, Nat.add_comm 1]
  rfl

/-- Behind the percent sign and flags digits are the width, if they do not begin with zero. -/
theorem reads_width (opened : scanner.position = .opened ∨ scanner.position = .flags) (nonzero : first ≠ 0)
    (offset : Nat) (rest : List (Fin 10)) : scanner.Reads scanner.holdingWidth offset first rest := by
  apply reads_of_stored scanner.appendsDigits_width
  rcases opened with h | h <;> simp [step, h, proceed, holdingWidth]

/-- Behind the dot any digits are the precision. -/
theorem reads_precision (dot : scanner.position = .dot) (offset : Nat) (first : Fin 10) (rest : List (Fin 10)) :
    scanner.Reads scanner.holdingPrecision offset first rest := by
  apply reads_of_stored scanner.appendsDigits_precision
  unfold step
  rw [dot, Symbol.ofChar_digitChar]
  rfl

end Paths

/-- Digits are read exactly: they are a number if their value fits into 32 bits, and otherwise the first of them
with which it does not is refused. That is what a scanner does with a width and with a precision. -/
structure ReadsExactly (offset : Nat) (first : Fin 10) (rest : List (Fin 10)) : Prop where
  ok_iff : ∀ n, readNumber offset first rest = .ok n ↔ valueFrom 0 (first :: rest) = n.toNat
  error_iff : ∀ failure, readNumber offset first rest = .error failure ↔
    ∃ index, FirstExcess 0 (first :: rest) index ∧ failure = .format (.numericOverflow (offset + index))
  width : ∀ scanner : Scanner, scanner.position = .opened ∨ scanner.position = .flags → first ≠ 0 →
    scanner.Reads scanner.holdingWidth offset first rest
  precision : ∀ scanner : Scanner, scanner.position = .dot →
    scanner.Reads scanner.holdingPrecision offset first rest

private theorem readsExactly (offset : Nat) (first : Fin 10) (rest : List (Fin 10)) :
    ReadsExactly offset first rest where
  ok_iff n := by
    rw [readNumber_eq]
    exact appendDigits_eq_ok_iff
  error_iff failure := by
    rw [readNumber_eq]
    exact appendDigits_eq_error_iff
  width _ opened nonzero := reads_width opened nonzero offset rest
  precision _ dot := reads_precision dot offset first rest

end Scanner

namespace Decimal

/-- The writer fills `places` with the digits of `n`, which are the canonical ones, and puts them behind what a text
has been so far. Reading them gives `n` again. -/
structure WritesNumeral (n : UInt32) (places : Places 10) (first : Fin 10) (rest : List (Fin 10)) : Prop where
  filled : (Places.blank 10).putDigits? n = some places
  index : places.index + (first :: rest).length = 10
  chars : places.chars = spell (first :: rest)
  canonical : ∀ digits, Canonical n.toNat digits ↔ digits = first :: rest
  appended : ∀ before, (Sink.writeDecimal n : Write TextSink Unit).attempt ⟨before⟩ =
    (.ok (), ⟨before ++ String.ofList (spell (first :: rest))⟩)
  read : ∀ offset, Scanner.readNumber offset first rest = .ok n

private theorem exists_writesNumeral (n : UInt32) : ∃ places first rest, WritesNumeral n places first rest := by
  obtain ⟨places, filled, chars⟩ := Places.exists_putDigits? n
  obtain ⟨digits, spelled, value, -⟩ := exists_spell_digits n.toNat
  have spelled32 : digits32 n = spell digits := (digits32_eq_digits n).trans spelled
  cases digits with
  | nil => exact absurd spelled32 (digits32_ne_nil n)
  | cons first rest =>
    refine ⟨places, first, rest, filled, ?_, chars.trans spelled32, ?_, ?_, ?_⟩
    · rw [← length_spell, ← spelled32, ← chars]
      exact places.index_add_length
    · intro others
      rw [canonical_iff, spelled]
      exact ⟨fun same => (spell_injective same).symm, fun same => congrArg spell same.symm⟩
    · intro before
      have written := TextSink.unbounded.write (.decimal n) ⟨before⟩
      rw [Chunk.write] at written
      rw [Write.attempt, written, ← spelled32]
      rfl
    · exact fun offset => ((Scanner.readsExactly offset first rest).ok_iff n).mpr value

end Decimal

/-- The destination has numbers put together in their places and takes them character by character. -/
def Sink.WritesInPlace (σ : Type) [Sink σ] : Prop :=
  ∀ n, (Sink.writeDecimal n : Write σ Unit) = Decimal.writeInPlace Sink.writeChar n

/-- Numbers are written and read without loss. Every number of 32 bits has room in ten places, where its canonical
digits stand in the end, and every destination takes them from there if it has no way of its own. Any digits, with
zeros in front or not, are read as their value, for which each product and each sum is checked, or they are
refused at the first one with which the value is too large. -/
theorem numbers_written_and_read :
    (∀ n : UInt32, ∃ places first rest, Decimal.WritesNumeral n places first rest) ∧
    (∀ (σ : Type) (writeChar : Char → Write σ Unit) (size : σ → Nat) (n : UInt32),
      ({ writeChar, size } : Sink σ).writeDecimal n = Decimal.writeInPlace writeChar n) ∧
    (Sink.WritesInPlace TextSink ∧ Sink.WritesInPlace ByteCount ∧ Sink.WritesInPlace FixedBuffer ∧
      Sink.WritesInPlace CharwiseSink) ∧
    (∀ number d offset, Scanner.appendDigit number d offset =
      (Decimal.accumulate? number d).elim (.error (.format (.numericOverflow offset))) .ok) ∧
    ∀ offset first rest, Scanner.ReadsExactly offset first rest := by
  have inPlace {σ : Type} (writeChar : Char → Write σ Unit) (n : UInt32) :=
    (Decimal.writeInPlace_eq writeChar n).symm
  exact ⟨Decimal.exists_writesNumeral, fun _ writeChar _ => inPlace writeChar,
    ⟨inPlace Sink.writeChar, inPlace Sink.writeChar, inPlace Sink.writeChar, inPlace Sink.writeChar⟩,
    Scanner.appendDigit_eq_accumulate?, Scanner.readsExactly⟩

/-- Of eleven nines the tenth is one too many, in a width that begins at byte 1. -/
theorem numbers_written_and_read_of_eleven_nines :
    Scanner.readNumber 1 9 (List.replicate 10 9) = .error (.format (.numericOverflow 10)) ∧
    ((Scanner.transcode ⟨.opened, .empty, 0⟩ 1 (Decimal.spell (9 :: List.replicate 10 9) ++ ['d']) :
      Write TextSink Unit).attempt .empty) = (.error (.format (.numericOverflow 10)), .empty) := by
  obtain ⟨-, -, -, -, reads⟩ := numbers_written_and_read
  have exactly := reads 1 9 (List.replicate 10 9)
  have refused : Scanner.readNumber 1 9 (List.replicate 10 9) = .error (.format (.numericOverflow 10)) :=
    (exactly.error_iff _).mpr ⟨9, ⟨by decide, by decide, by decide⟩, rfl⟩
  refine ⟨refused, ?_⟩
  rw [exactly.width ⟨.opened, .empty, 0⟩ (.inl rfl) (by decide) TextSink ['d'], refused]
  rfl

end BraceTemplate
