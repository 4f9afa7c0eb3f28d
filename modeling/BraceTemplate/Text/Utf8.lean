/-! Byte counts and byte-addressed pieces of UTF-8 text, over lists of characters.
A piece exists only where both of its ends lie between two characters. -/
namespace BraceTemplate.Text

/-- The bytes that the characters take in UTF-8. -/
def byteCount : List Char → Nat
  | [] => 0
  | c :: rest => c.utf8Size + byteCount rest

@[simp] theorem byteCount_append (xs ys : List Char) :
    byteCount (xs ++ ys) = byteCount xs + byteCount ys := by
  induction xs with
  | nil => simp [byteCount]
  | cons c rest ih => simp [byteCount, ih, Nat.add_assoc]

/-- The characters of a text with the byte offsets at which they begin, the first one at `offset`. -/
def offsets (offset : Nat) : List Char → List (Nat × Char)
  | [] => []
  | c :: rest => (offset, c) :: offsets (offset + c.utf8Size) rest

/-- The first `n` bytes and the text after them, unless byte `n` is inside a character
or beyond the end. -/
def splitBytes? : Nat → List Char → Option (List Char × List Char)
  | 0, text => some ([], text)
  | _ + 1, [] => none
  | n + 1, c :: rest =>
    if c.utf8Size ≤ n + 1 then
      (splitBytes? (n + 1 - c.utf8Size) rest).map fun (first, last) => (c :: first, last)
    else none

/-- The piece of `text` from byte `start` up to byte `stop`. -/
def slice? (text : List Char) (start stop : Nat) : Option (List Char) := do
  if stop < start then none
  let (_, rest) ← splitBytes? start text
  let (piece, _) ← splitBytes? (stop - start) rest
  some piece

/-- A split loses nothing and is made where it was asked for. -/
theorem splitBytes?_eq_some {n : Nat} {text first last : List Char}
    (h : splitBytes? n text = some (first, last)) :
    text = first ++ last ∧ byteCount first = n := by
  fun_induction splitBytes? n text generalizing first last with
  | case1 text => simp_all [byteCount]
  | case2 => simp at h
  | case3 n c rest fits ih =>
    obtain ⟨⟨xs, ys⟩, hs, he⟩ := Option.map_eq_some_iff.1 h
    obtain ⟨hx, hn⟩ := ih hs
    simp only [Prod.mk.injEq] at he
    obtain ⟨rfl, rfl⟩ := he
    refine ⟨by simp [hx], ?_⟩
    rw [byteCount, hn]
    omega
  | case4 => simp at h

end BraceTemplate.Text
