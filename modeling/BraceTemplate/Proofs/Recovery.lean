import BraceTemplate.Proofs.Filling
import BraceTemplate.Scanner.Update

/-! Recovery after refusals. A scanner can take characters by changing its parts one after the other, and then
too a refusal finds all of them as they were, so that refused characters leave no trace in what follows. -/
namespace BraceTemplate

/-- A set of as many flags as there are has all of them. -/
private theorem FlagSet.contains_of_length_le {flags : FlagSet} (h : Flag.all.length ≤ flags.size) (flag : Flag) :
    flags.contains flag := by
  have all : flags.toList = Flag.all := List.filter_sublist.eq_of_length_le h
  have member : flag ∈ flags.toList := by
    rw [all]
    exact flag.mem_all
  exact (List.mem_filter.mp member).2

namespace Scanner

/-- The outcome in place of what is given as a whole: a failure keeps the scanner. -/
def commit (scanner : Scanner) : Result (Step × Scanner) → EStateM.Result Failure Scanner Step
  | .ok (step, next) => .ok step next
  | .error failure => .error failure scanner

private theorem get_bind {α : Type} (next : Scanner → Update α) (scanner : Scanner) :
    (get >>= next) scanner = next scanner scanner := rfl

private theorem takeFlag_in_place (scanner : Scanner) (flag : Flag) (offset : Nat) :
    (do Update.takeFlag flag offset; Update.proceed .flags : Update Step) scanner =
      scanner.commit (scanner.takeFlag flag offset) := by
  unfold Update.takeFlag Update.insertFlag takeFlag FlagSet.insertNew?
  by_cases old : scanner.field.flags.contains flag
  · rw [if_pos old]
    by_cases full : Flag.all.length ≤ scanner.field.flags.size
    · rw [bind_assoc, get_bind, if_pos full]
      rfl
    · rw [bind_assoc, get_bind, if_neg full, bind_assoc, bind_assoc, get_bind, if_pos old]
      rfl
  · have room : ¬ Flag.all.length ≤ scanner.field.flags.size := fun full => old (FlagSet.contains_of_length_le full flag)
    rw [if_neg old, bind_assoc, get_bind, if_neg room, bind_assoc, bind_assoc, get_bind, if_neg old]
    rfl

private theorem close_in_place (scanner : Scanner) (conversion : Conversion) (stop : Nat) :
    Update.close conversion stop scanner = scanner.commit (scanner.close conversion stop) := by
  unfold Update.close close
  rw [get_bind]
  cases Span.between scanner.clauseStart stop <;> rfl

private theorem digit_in_place (scanner : Scanner) (number : Result UInt32) (change : UInt32 → Field → Field)
    (position : Position) :
    (do Update.fill (change (← Write.ofResult number)); Update.proceed position : Update Step) scanner =
      scanner.commit (do scanner.proceed position (change (← number) scanner.field)) := by
  cases number <;> rfl

/-- Changed in place, a scanner gives the same answers, and a failure keeps it as it was. -/
theorem update_eq (scanner : Scanner) (offset : Nat) (c : Char) :
    update offset c scanner = scanner.commit (scanner.step offset c) := by
  obtain ⟨position, field, clauseStart⟩ := scanner
  unfold update step
  generalize Symbol.ofChar c = symbol
  cases position with
  | outside | dot => cases symbol <;> rfl
  | opened | flags =>
    cases symbol with
    | digit d =>
      obtain ⟨n, small⟩ := d
      cases n with
      | zero => exact takeFlag_in_place _ .zero offset
      | succ n => rfl
    | flag flag => exact takeFlag_in_place _ flag offset
    | conversion conversion => exact close_in_place _ conversion _
    | _ => rfl
  | width =>
    cases symbol with
    | digit d => exact digit_in_place _ _ (fun n field => { field with width := some n }) .width
    | conversion conversion => exact close_in_place _ conversion _
    | _ => rfl
  | precision =>
    cases symbol with
    | digit d => exact digit_in_place _ _ (fun n field => { field with precision := some n }) .precision
    | conversion conversion => exact close_in_place _ conversion _
    | _ => rfl
  | length first =>
    cases symbol with
    | length second => cases first <;> cases second <;> rfl
    | conversion conversion => exact close_in_place _ conversion _
    | _ => rfl
  | complete =>
    cases symbol with
    | conversion conversion => exact close_in_place _ conversion _
    | _ => rfl

private theorem attempt_update (scanner : Scanner) (offset : Nat) (c : Char) :
    Write.attempt (update offset c) scanner = scanner.offer offset c := by
  rw [Write.attempt, update_eq, offer]
  cases scanner.step offset c <;> rfl

section Fault

variable {scanner : Scanner} {fault : Fault}

private theorem takeFlag_ne_fault (flag : Flag) (offset : Nat) :
    scanner.takeFlag flag offset ≠ .error (.fault fault) := by
  unfold takeFlag
  split <;> nofun

private theorem appendDigit_bind_ne_fault (number : Option UInt32) (d : Fin 10) (offset : Nat)
    (position : Position) (change : UInt32 → Field) :
    (do scanner.proceed position (change (← appendDigit number d offset))) ≠ .error (.fault fault) := by
  unfold appendDigit
  split <;> nofun

private theorem lt_of_close_eq_fault {conversion : Conversion} {stop : Nat}
    (h : scanner.close conversion stop = .error (.fault fault)) : stop < scanner.clauseStart := by
  apply Nat.lt_of_not_le
  intro ordered
  cases (close_of_le conversion ordered).symm.trans h

/-- The only promise that a step can break is that a specifier ends behind its beginning. -/
theorem lt_of_step_eq_fault {offset : Nat} {c : Char} (h : scanner.step offset c = .error (.fault fault)) :
    offset + c.utf8Size < scanner.clauseStart := by
  obtain ⟨position, field, clauseStart⟩ := scanner
  unfold step at h
  generalize Symbol.ofChar c = symbol at h
  cases position with
  | outside | dot => cases symbol <;> cases h
  | opened | flags =>
    cases symbol with
    | digit d =>
      obtain ⟨n, small⟩ := d
      cases n with
      | zero => exact absurd h (takeFlag_ne_fault .zero offset)
      | succ n => cases h
    | flag flag => exact absurd h (takeFlag_ne_fault flag offset)
    | conversion conversion => exact lt_of_close_eq_fault h
    | _ => cases h
  | width =>
    cases symbol with
    | digit d => exact absurd h (appendDigit_bind_ne_fault _ d offset _ fun n => { field with width := some n })
    | conversion conversion => exact lt_of_close_eq_fault h
    | _ => cases h
  | precision =>
    cases symbol with
    | digit d => exact absurd h (appendDigit_bind_ne_fault _ d offset _ fun n => { field with precision := some n })
    | conversion conversion => exact lt_of_close_eq_fault h
    | _ => cases h
  | length first =>
    cases symbol with
    | length second => cases first <;> cases second <;> cases h
    | conversion conversion => exact lt_of_close_eq_fault h
    | _ => cases h
  | complete =>
    cases symbol with
    | conversion conversion => exact lt_of_close_eq_fault h
    | _ => cases h

end Fault

section Accepted

variable {scanner next : Scanner}

/-- The calls that are not refused, each by the scanner as it is then. -/
def accepted (scanner : Scanner) : List (Nat × Char) → List (Nat × Char)
  | [] => []
  | (offset, c) :: rest =>
    match scanner.offer offset c with
    | (.ok _, next) => (offset, c) :: next.accepted rest
    | (.error _, next) => next.accepted rest

private theorem offer_eq_error_iff {offset : Nat} {c : Char} {failure : Failure} :
    scanner.offer offset c = (.error failure, next) ↔
      scanner.step offset c = .error failure ∧ next = scanner := by
  unfold offer
  cases scanner.step offset c <;> simp [eq_comm]

theorem trace_accepted (scanner : Scanner) (calls : List (Nat × Char)) :
    scanner.trace (scanner.accepted calls) = (scanner.trace calls).filter (·.1.isOk) := by
  induction calls generalizing scanner with
  | nil => rfl
  | cons call calls ih =>
    obtain ⟨offset, c⟩ := call
    rcases offered : scanner.offer offset c with ⟨answer, next⟩
    cases answer with
    | ok step => simp [accepted, trace, offered, ih, Except.isOk, Except.toBool]
    | error failure =>
      obtain rfl := (offer_eq_error_iff.mp offered).2
      simp [accepted, trace, offered, ih, Except.isOk, Except.toBool]

theorem after_accepted (scanner : Scanner) (calls : List (Nat × Char)) :
    scanner.after (scanner.accepted calls) = scanner.after calls := by
  induction calls generalizing scanner with
  | nil => rfl
  | cons call calls ih =>
    obtain ⟨offset, c⟩ := call
    rcases offered : scanner.offer offset c with ⟨answer, next⟩
    rw [after_cons offered]
    cases answer with
    | ok step => simp [accepted, offered, after_cons offered, ih]
    | error failure =>
      obtain rfl := (offer_eq_error_iff.mp offered).2
      simp [accepted, offered, ih]

end Accepted

/-- A refusal is atomic. Changed in place, a scanner gives the answers that it gives as a whole, and keeps all of
its parts where a step fails, be it for an error or because a specifier would end before its beginning. So after
any calls the answers that are no failures, the scanner behind each of them and the end of the text are those
of the accepted calls alone. -/
theorem refusals_leave_no_trace (scanner : Scanner) :
    (∀ offset c, Write.attempt (update offset c) scanner = scanner.offer offset c) ∧
    (∀ offset c failure kept, Write.attempt (update offset c) scanner = (.error failure, kept) →
      kept = scanner ∧ ∀ fault, failure = .fault fault → offset + c.utf8Size < scanner.clauseStart) ∧
    ∀ calls, scanner.trace (scanner.accepted calls) = (scanner.trace calls).filter (·.1.isOk) ∧
      scanner.after (scanner.accepted calls) = scanner.after calls ∧
      ∀ stop, (scanner.after (scanner.accepted calls)).finish stop = (scanner.after calls).finish stop := by
  refine ⟨attempt_update scanner, ?_, ?_⟩
  · intro offset c failure kept failed
    rw [attempt_update] at failed
    obtain ⟨refused, same⟩ := offer_eq_error_iff.mp failed
    refine ⟨same, ?_⟩
    rintro fault rfl
    exact lt_of_step_eq_fault refused
  · intro calls
    have same := after_accepted scanner calls
    exact ⟨trace_accepted scanner calls, same, fun stop => by rw [same]⟩

/-- A conversion that is offered before the percent sign of its clause is refused, and accepted behind it. -/
theorem refusals_leave_no_trace_of_inverted_span :
    Write.attempt (update 0 'd') ⟨.opened, .empty, 9⟩ =
      (.error (.fault (.invertedSpan 9 1)), ⟨.opened, .empty, 9⟩) ∧
    0 + 'd'.utf8Size < 9 ∧
    Scanner.after ⟨.opened, .empty, 9⟩ [(10, 'd')] = Scanner.after ⟨.opened, .empty, 9⟩ [(0, 'd'), (10, 'd')] := by
  obtain ⟨-, atomic, runs⟩ := refusals_leave_no_trace ⟨.opened, .empty, 9⟩
  have refused : Write.attempt (update 0 'd') ⟨.opened, .empty, 9⟩ =
      (.error (.fault (.invertedSpan 9 1)), ⟨.opened, .empty, 9⟩) := rfl
  exact ⟨refused, (atomic 0 'd' _ _ refused).2 _ rfl, (runs [(0, 'd'), (10, 'd')]).2.1⟩

example : (start.accepted [(0, '%'), (1, '-'), (2, '-'), (3, 'q'), (4, 'd')]) = [(0, '%'), (1, '-'), (4, 'd')] := by
  decide

end Scanner

end BraceTemplate
