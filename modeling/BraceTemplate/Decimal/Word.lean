import BraceTemplate.Sink

/-! Decimal numbers in machine words: a writer that fills a fixed number of bytes from the last one on, and digits
that are appended to a number by two operations of which each is checked. Nothing in the writer sees to it that
the bytes suffice. -/
namespace BraceTemplate.Decimal

/-- A fixed number of bytes, of which those from `index` on are written. -/
structure Places (size : Nat) where
  bytes : Vector UInt8 size
  index : Nat
  index_le : index ≤ size

namespace Places

variable {size : Nat}

/-- Places before the first byte is written. -/
def blank (size : Nat) : Places size := ⟨Vector.replicate size 0, size, Nat.le_refl size⟩

/-- Writes a byte in front of the written ones, unless these begin with the first place. -/
def put? (byte : UInt8) : Places size → Option (Places size)
  | ⟨_, 0, _⟩ => none
  | ⟨bytes, index + 1, inside⟩ => some ⟨bytes.set index byte inside, index, Nat.le_of_succ_le inside⟩

theorem toNat_div_lt {n : UInt32} (h : n / 10 ≠ 0) : (n / 10).toNat < n.toNat := by
  have positive : (n / 10).toNat ≠ 0 := fun zero => h (UInt32.toNat_inj.mp zero)
  have quotient : (n / 10).toNat = n.toNat / 10 := UInt32.toNat_div n 10
  omega

/-- Writes the digits of `n` in front of the written bytes, the last one first, as long as there are any. -/
def putDigits? (places : Places size) (n : UInt32) : Option (Places size) := do
  let next ← places.put? (48 + (n % 10).toUInt8)
  if n / 10 = 0 then some next else next.putDigits? (n / 10)
termination_by n.toNat
decreasing_by exact toNat_div_lt ‹_›

/-- The characters of the written bytes. -/
def chars (places : Places size) : List Char := (places.bytes.toList.drop places.index).map Char.ofUInt8

end Places

/-- Writes the digits of `n` with `writeChar` when all of them are in their places. -/
def writeInPlace {σ : Type} (writeChar : Char → Write σ Unit) (n : UInt32) : Write σ Unit :=
  match (Places.blank 10).putDigits? n with
  | some places => places.chars.forM writeChar
  | none => throw (.fault .negativeOffset)

/-- The product, if 32 bits hold it. -/
def checkedMul? (a b : UInt32) : Option UInt32 := if a.toNat * b.toNat < UInt32.size then some (a * b) else none

/-- The sum, if 32 bits hold it. -/
def checkedAdd? (a b : UInt32) : Option UInt32 := if a.toNat + b.toNat < UInt32.size then some (a + b) else none

/-- A number that may be absent, with one more digit behind it. -/
def accumulate? (number : Option UInt32) (d : Fin 10) : Option UInt32 := do
  let shifted ← checkedMul? (number.getD 0) 10
  checkedAdd? shifted (UInt32.ofNat d)

end BraceTemplate.Decimal
