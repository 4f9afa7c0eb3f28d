import BraceTemplate.Text.Property

/-! Quoted characters and texts, in which everything invisible is spelled out. The quote that
delimits is escaped inside, the other one is not. A quoted text shows where it ends and can be read
back. -/
namespace BraceTemplate.Text

/-- The lower-case hexadecimal digits of a code point. -/
def hexDigits (c : Char) : List Char := Nat.toDigits 16 c.toNat

/-- One character between quotes of the kind `quote`. -/
def escape (quote c : Char) : List Char :=
  if c = '\x00' then ['\\', '0']
  else if c = '\t' then ['\\', 't']
  else if c = '\r' then ['\\', 'r']
  else if c = '\n' then ['\\', 'n']
  else if c = '\\' || c = quote then ['\\', c]
  else if isUnprintable c then ['\\', 'u', '\x7b'] ++ hexDigits c ++ ['\x7d']
  else [c]

/-- A character in single quotes. -/
def quoteChar (c : Char) : String :=
  String.ofList ('\x27' :: escape '\x27' c ++ ['\x27'])

/-- A text in double quotes. -/
def quote (text : String) : String :=
  String.ofList ('\x22' :: text.toList.flatMap (escape '\x22') ++ ['\x22'])

theorem toList_quote (text : String) :
    (quote text).toList = '\x22' :: text.toList.flatMap (escape '\x22') ++ ['\x22'] := String.toList_ofList

/-! ## Reading quotations -/

def hexDigit? (c : Char) : Option Nat := "0123456789abcdef".toList.idxOf? c

/-- The character that `c` stands for behind a backslash. -/
def ofEscape? : Char → Option Char
  | '0' => some '\x00'
  | 't' => some '\t'
  | 'r' => some '\r'
  | 'n' => some '\n'
  | '\\' => some '\\'
  | '\x22' => some '\x22'
  | _ => none

/-- What is quoted up to the closing quote, and the text behind that. Between the braces of a code
point, `code` is the value of its digits so far. -/
def readQuoted? : Option Nat → List Char → Option (List Char × List Char)
  | _, [] => none
  | some code, c :: rest =>
    if c = '\x7d' then (readQuoted? none rest).map (Prod.map (Char.ofNat code :: ·) id)
    else do readQuoted? (some (16 * code + (← hexDigit? c))) rest
  | none, '\x22' :: rest => some ([], rest)
  | none, '\\' :: 'u' :: '\x7b' :: rest => readQuoted? (some 0) rest
  | none, '\\' :: c :: rest => do
    let first ← ofEscape? c
    (readQuoted? none rest).map (Prod.map (first :: ·) id)
  | none, c :: rest => (readQuoted? none rest).map (Prod.map (c :: ·) id)

/-- The text that is quoted, if `quotation` is one and nothing stands behind it. -/
def unquote? (quotation : String) : Option String :=
  match quotation.toList with
  | '\x22' :: rest =>
    match readQuoted? none rest with
    | some (text, []) => some (String.ofList text)
    | _ => none
  | _ => none

private theorem hexDigit?_digitChar {d : Nat} (h : d < 16) : hexDigit? (Nat.digitChar d) = some d := by
  have table : ∀ d : Fin 16, hexDigit? (Nat.digitChar d.val) = some d.val := by decide
  exact table ⟨d, h⟩

private theorem readQuoted?_digitChar (code : Nat) {d : Nat} (h : d < 16) (rest : List Char) :
    readQuoted? (some code) (Nat.digitChar d :: rest) = readQuoted? (some (16 * code + d)) rest := by
  have inside : Nat.digitChar d ≠ '\x7d' := Nat.digitChar_ne '\x7d' (by decide)
  rw [readQuoted?, if_neg inside, hexDigit?_digitChar h]
  rfl

/-- The digits of a number are read as the number. -/
private theorem readQuoted?_toDigits (n : Nat) (rest : List Char) :
    readQuoted? (some 0) (Nat.toDigits 16 n ++ rest) = readQuoted? (some n) rest := by
  induction n using Nat.strongRecOn generalizing rest with
  | ind n ih =>
    rcases Nat.lt_or_ge n 16 with small | large
    · rw [Nat.toDigits_of_lt_base small, List.singleton_append, readQuoted?_digitChar 0 small, Nat.mul_zero,
        Nat.zero_add]
    · have front : n / 16 < n := Nat.div_lt_self (by omega) (by decide)
      rw [Nat.toDigits_of_base_le (by decide) large, List.append_assoc, List.singleton_append, ih _ front,
        readQuoted?_digitChar _ (Nat.mod_lt n (by decide)), Nat.div_add_mod]

/-- A character between quotes is read as itself. It neither ends the quotation nor changes how the text
behind it is read. -/
theorem readQuoted?_escape (c : Char) (rest : List Char) :
    readQuoted? none (escape '\x22' c ++ rest) = (readQuoted? none rest).map (Prod.map (c :: ·) id) := by
  unfold escape
  split
  · next zero => subst zero; rfl
  split
  · next tab => subst tab; rfl
  split
  · next carriageReturn => subst carriageReturn; rfl
  split
  · next newline => subst newline; rfl
  split
  · next special =>
    simp only [Bool.or_eq_true, decide_eq_true_eq] at special
    rcases special with rfl | rfl <;> rfl
  split
  · have opened : readQuoted? none (['\\', 'u', '\x7b'] ++ hexDigits c ++ ['\x7d'] ++ rest) =
        readQuoted? (some 0) (hexDigits c ++ '\x7d' :: rest) := by
      rw [List.append_assoc, List.append_assoc]
      rfl
    rw [opened, hexDigits, readQuoted?_toDigits, readQuoted?, if_pos rfl, Char.ofNat_toNat]
  · next plain _ =>
    simp only [Bool.or_eq_true, decide_eq_true_eq, not_or] at plain
    obtain ⟨backslash, mark⟩ := plain
    rw [List.singleton_append, readQuoted?]
    · exact mark
    · exact fun _ same => absurd same backslash
    · exact fun _ _ same => absurd same backslash

theorem readQuoted?_flatMap_escape (text rest : List Char) :
    readQuoted? none (text.flatMap (escape '\x22') ++ '\x22' :: rest) = some (text, rest) := by
  induction text with
  | nil => rfl
  | cons c text ih =>
    rw [List.flatMap_cons, List.append_assoc, readQuoted?_escape, ih]
    rfl

/-- A quotation is read as the text that is quoted. -/
theorem unquote?_quote (text : String) : unquote? (quote text) = some text := by
  unfold unquote?
  rw [toList_quote]
  simp only [List.cons_append, readQuoted?_flatMap_escape, String.ofList_toList]

end BraceTemplate.Text
