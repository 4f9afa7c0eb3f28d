/-! Decimal digits of naturals, least significant first into a bounded number of places,
and the 32-bit accumulator that reads digits back. -/
namespace BraceTemplate.Decimal

def digitChar (d : Nat) : Char := Char.ofNat ('0'.toNat + d)

/-- The digit that a character stands for. Only the ten ASCII digits count. -/
def digit? (c : Char) : Option (Fin 10) :=
  if h : '0'.toNat ≤ c.toNat ∧ c.toNat - '0'.toNat < 10 then some ⟨c.toNat - '0'.toNat, h.2⟩ else none

def spell (digits : List (Fin 10)) : List Char := digits.map fun d => digitChar d.val

/-- Puts the digits of `n`, last one first, in front of `written`, using at most `places`
places. There is no answer when the places run out before the digits do. -/
def fill : Nat → Nat → List Char → Option (List Char)
  | 0, _, _ => none
  | places + 1, n, written =>
    if n / 10 = 0 then some (digitChar (n % 10) :: written)
    else fill places (n / 10) (digitChar (n % 10) :: written)

/-- Places suffice for every number below the matching power of ten. -/
theorem fill_isSome {places n : Nat} (written : List Char) (h : n < Nat.pow 10 (places + 1)) :
    (fill (places + 1) n written).isSome := by
  induction places generalizing n written with
  | zero =>
    have small : n < 10 := h
    have : n / 10 = 0 := by omega
    simp [fill, this]
  | succ places ih =>
    have bound : n < Nat.pow 10 (places + 1) * 10 := h
    rw [fill]
    split
    · rfl
    · exact ih _ (by omega)

/-- The decimal digits of `n`, without leading zeros. -/
def digits (n : Nat) : List Char :=
  (fill (n + 1) n []).get (fill_isSome [] (Nat.lt_of_lt_of_le (Nat.lt_pow_self (by decide))
    (Nat.pow_le_pow_right (by decide) (Nat.le_succ n))))

/-- The decimal digits of a 32-bit number. Ten places hold each of them. -/
def digits32 (n : UInt32) : List Char :=
  (fill 10 n.toNat []).get (fill_isSome [] (Nat.lt_trans n.toNat_lt (by decide)))

def text (n : Nat) : String := String.ofList (digits n)

/-- `n` followed by one more digit, unless 32 bits do not hold the result. -/
def push? (n : UInt32) (d : Fin 10) : Option UInt32 :=
  let value := n.toNat * 10 + d
  if value < UInt32.size then some (UInt32.ofNat value) else none

/-- The value of a digit sequence read from the left, starting from `n`. -/
def valueFrom (n : Nat) : List (Fin 10) → Nat
  | [] => n
  | d :: rest => valueFrom (n * 10 + d) rest

/-- The number written by a non-empty digit text, if it is below `limit`. A single plus sign may
stand in front; leading zeros do not matter. -/
def parseBelow? (limit : Nat) (text : List Char) : Option Nat := do
  let digits := match text with
    | '+' :: rest => rest
    | _ => text
  if digits.isEmpty then none
  let value := valueFrom 0 (← digits.mapM digit?)
  if value < limit then some value else none

end BraceTemplate.Decimal
