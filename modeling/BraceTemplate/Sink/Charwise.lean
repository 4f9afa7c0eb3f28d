import BraceTemplate.Sink
import BraceTemplate.Text.Utf8

/-! A destination of limited room that takes single characters only, so that texts and numbers
are written as far as they fit. -/
namespace BraceTemplate

/-- The output so far and the bytes it may take. -/
structure CharwiseSink where
  capacity : Nat
  text : String
  deriving DecidableEq, Repr

namespace CharwiseSink

/-- The destination of the given capacity before the first write. -/
def ofCapacity (capacity : Nat) : CharwiseSink := ⟨capacity, ""⟩

def append (c : Char) : Write CharwiseSink Unit := fun sink =>
  let required := sink.text.utf8ByteSize + c.utf8Size
  if required ≤ sink.capacity then .ok () { sink with text := sink.text.push c }
  else .error (.format (.capacityExceeded sink.capacity required)) sink

instance : Sink CharwiseSink where
  writeChar := append
  size sink := sink.text.utf8ByteSize

variable {capacity : Nat} {held : String} {chars : List Char} {c : Char}

theorem append_of_le (h : held.utf8ByteSize + c.utf8Size ≤ capacity) :
    append c ⟨capacity, held⟩ = .ok () ⟨capacity, held.push c⟩ := if_pos h

theorem append_of_lt (h : capacity < held.utf8ByteSize + c.utf8Size) :
    append c ⟨capacity, held⟩ =
      .error (.format (.capacityExceeded capacity (held.utf8ByteSize + c.utf8Size))) ⟨capacity, held⟩ :=
  if_neg (Nat.not_le_of_lt h)

private theorem push_append_ofList (text : String) (c : Char) (chars : List Char) :
    text.push c ++ String.ofList chars = text ++ String.ofList (c :: chars) := by
  rw [← List.singleton_append, String.ofList_append, ← String.singleton_eq_ofList, String.push_eq_append,
    String.append_assoc]

theorem forM_append_of_le (h : held.utf8ByteSize + Text.byteCount chars ≤ capacity) :
    forM chars append ⟨capacity, held⟩ = .ok () ⟨capacity, held ++ String.ofList chars⟩ := by
  induction chars generalizing held with
  | nil => simp [pure, EStateM.pure]
  | cons c chars ih =>
    rw [Text.byteCount] at h
    have first : held.utf8ByteSize + c.utf8Size ≤ capacity := by omega
    have rest : (held.push c).utf8ByteSize + Text.byteCount chars ≤ capacity := by
      rw [String.utf8ByteSize_push]
      omega
    rw [List.forM_cons, Write.bind_ok (append_of_le first), ih rest, push_append_ofList]

/-- The first character that does not fit ends the run. -/
theorem forM_append_of_lt (inside : held.utf8ByteSize ≤ capacity)
    (h : capacity < held.utf8ByteSize + Text.byteCount chars) :
    ∃ front c back, chars = front ++ c :: back ∧ held.utf8ByteSize + Text.byteCount front ≤ capacity ∧
      capacity < held.utf8ByteSize + Text.byteCount front + c.utf8Size ∧
      forM chars append ⟨capacity, held⟩ =
        .error (.format (.capacityExceeded capacity (held.utf8ByteSize + Text.byteCount front + c.utf8Size)))
          ⟨capacity, held ++ String.ofList front⟩ := by
  induction chars generalizing held with
  | nil => exact absurd h (Nat.not_lt_of_le inside)
  | cons c chars ih =>
    rw [Text.byteCount] at h
    rcases Nat.lt_or_ge capacity (held.utf8ByteSize + c.utf8Size) with full | room
    · refine ⟨[], c, chars, rfl, inside, full, ?_⟩
      rw [List.forM_cons, Write.bind_error (append_of_lt full)]
      simp [Text.byteCount]
    · have longer : (held.push c).utf8ByteSize = held.utf8ByteSize + c.utf8Size := String.utf8ByteSize_push
      have held_fits : (held.push c).utf8ByteSize ≤ capacity := by omega
      have exceeds : capacity < (held.push c).utf8ByteSize + Text.byteCount chars := by omega
      obtain ⟨front, d, back, split, fits, full, refused⟩ := ih held_fits exceeds
      have size : (held.push c).utf8ByteSize + Text.byteCount front =
          held.utf8ByteSize + Text.byteCount (c :: front) := by
        rw [longer, Text.byteCount, Nat.add_assoc]
      rw [size] at fits full refused
      refine ⟨c :: front, d, back, by rw [split, List.cons_append], fits, full, ?_⟩
      rw [List.forM_cons, Write.bind_ok (append_of_le room), refused, push_append_ofList]

end CharwiseSink

end BraceTemplate
