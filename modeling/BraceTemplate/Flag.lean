/-! The flags of a conversion specifier and sets of them. A set has no order of its own:
it is always listed in the canonical order `-+ #0`. -/
namespace BraceTemplate

inductive Flag where
  | minus
  | plus
  | space
  | hash
  | zero
  deriving DecidableEq, Repr

namespace Flag

def all : List Flag := [.minus, .plus, .space, .hash, .zero]

def char : Flag → Char
  | minus => '-'
  | plus => '+'
  | space => ' '
  | hash => '#'
  | zero => '0'

theorem mem_all (flag : Flag) : flag ∈ all := by
  cases flag <;> decide

theorem map_char_all : all.map char = "-+ #0".toList := rfl

/-- The characters that write flags. -/
theorem exists_char_eq_iff {c : Char} : (∃ flag : Flag, flag.char = c) ↔ c ∈ "-+ #0".toList := by
  simp only [← map_char_all, List.mem_map, mem_all, true_and]

def ofChar? : Char → Option Flag
  | '-' => some minus
  | '+' => some plus
  | ' ' => some space
  | '#' => some hash
  | '0' => some zero
  | _ => none

def name : Flag → String
  | minus => "minus"
  | plus => "plus"
  | space => "space"
  | hash => "hash"
  | zero => "zero"

end Flag

structure FlagSet where
  minus : Bool
  plus : Bool
  space : Bool
  hash : Bool
  zero : Bool
  deriving DecidableEq, Repr

namespace FlagSet

def empty : FlagSet := ⟨false, false, false, false, false⟩

instance : Inhabited FlagSet := ⟨empty⟩

def contains (set : FlagSet) : Flag → Bool
  | .minus => set.minus
  | .plus => set.plus
  | .space => set.space
  | .hash => set.hash
  | .zero => set.zero

/-- The set with `flag` in it. -/
def insert (set : FlagSet) : Flag → FlagSet
  | .minus => { set with minus := true }
  | .plus => { set with plus := true }
  | .space => { set with space := true }
  | .hash => { set with hash := true }
  | .zero => { set with zero := true }

/-- The set with `flag` added, unless it was there already. -/
def insertNew? (set : FlagSet) (flag : Flag) : Option FlagSet :=
  if set.contains flag then none else some (set.insert flag)

def toList (set : FlagSet) : List Flag := Flag.all.filter set.contains

def size (set : FlagSet) : Nat := set.toList.length

def ofList (flags : List Flag) : FlagSet := flags.foldl insert empty

/-- The flag characters of the set, in canonical order. -/
def text (set : FlagSet) : String := String.ofList (set.toList.map Flag.char)

/-- The set of the flags written in a text. Other characters and repetitions do not matter. -/
def ofText (text : String) : FlagSet := ofList (text.toList.filterMap Flag.ofChar?)

@[simp] theorem contains_empty (flag : Flag) : empty.contains flag = false := by cases flag <;> rfl

@[simp] theorem contains_insert (set : FlagSet) (flag other : Flag) :
    (set.insert flag).contains other = (decide (flag = other) || set.contains other) := by
  cases flag <;> cases other <;> simp [insert, contains]

/-- Sets with the same members are equal. -/
theorem ext_contains {s t : FlagSet} (h : ∀ flag, s.contains flag = t.contains flag) : s = t := by
  have h₁ := h .minus
  have h₂ := h .plus
  have h₃ := h .space
  have h₄ := h .hash
  have h₅ := h .zero
  cases s
  cases t
  simp_all [contains]

end FlagSet

end BraceTemplate
