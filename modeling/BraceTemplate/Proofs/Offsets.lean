import BraceTemplate.Capacity
import BraceTemplate.Proofs.Recovery

/-! Scanners that are offered characters at offsets that do not decrease, as those of a text are. While a clause
is open, its beginning is the offset of the percent sign that opened it, so that no answer is about an inverted
range, refusals in between or not. -/
namespace BraceTemplate

/-- The range is not inverted and ends at byte `limit` or before. -/
structure Span.Within (span : Span) (limit : Nat) : Prop where
  start_le_stop : span.start ≤ span.stop
  stop_le : span.stop ≤ limit

theorem Span.Within.mono {span : Span} {limit larger : Nat} (h : span.Within limit) (le : limit ≤ larger) :
    span.Within larger := ⟨h.start_le_stop, Nat.le_trans h.stop_le le⟩

/-- An answer about bytes up to `limit`: a specifier that was read there, or an error whose range is there.
A broken promise is no answer. -/
def AnswersWithin (limit : Nat) : Result Step → Prop
  | .ok (.specifier found) => found.span.Within limit
  | .ok _ => True
  | .error (.format error) => ∃ span, error.span = .ok (some span) ∧ span.Within limit
  | .error (.fault _) => False

theorem AnswersWithin.mono {answer : Result Step} {limit larger : Nat} (h : AnswersWithin limit answer)
    (le : limit ≤ larger) : AnswersWithin larger answer := by
  rcases answer with (error | fault) | (c | _ | _ | found)
  · obtain ⟨span, made, within⟩ := h
    exact ⟨span, made, within.mono le⟩
  · exact h
  · trivial
  · trivial
  · trivial
  · exact Span.Within.mono h le

/-- The fault of a character is about the character, or about what ends where it begins. -/
private theorem Stem.refusal_within (stem : Stem) (c : Char) (offset : Nat) :
    AnswersWithin (offset + c.utf8Size) (.error (.format (stem.refusal c offset))) := by
  have wide := c.utf8Size_pos
  have made {start stop : Nat} (ordered : start ≤ stop) (inside : stop ≤ offset + c.utf8Size) :
      ∃ span, some <$> Span.between start stop = .ok (some span) ∧ span.Within (offset + c.utf8Size) := by
    rw [Span.between_of_le ordered]
    exact ⟨⟨start, stop⟩, rfl, ordered, inside⟩
  have whole := made (Nat.le_add_right offset c.utf8Size) (Nat.le_refl _)
  unfold refusal
  split
  · exact made (Nat.sub_le offset 1) (Nat.le_add_right offset _)
  split
  · exact whole
  split
  · exact made (Nat.le_add_right offset 1) (Nat.add_le_add_left wide offset)
  split
  · exact whole
  split
  · exact whole
  · exact whole

namespace Scanner

variable {scanner next : Scanner} {offset : Nat} {c : Char} {step : Step}

/-- An error that a sound scanner answers with is the fault of the character behind some stem. -/
private theorem Sound.exists_refusal (h : scanner.Sound) {error : FormatError}
    (refused : scanner.step offset c = .error (.format error)) : ∃ stem : Stem, error = stem.refusal c offset := by
  rcases h.step_cases offset c with ⟨_, _, answer, -⟩ | ⟨stem, answer⟩ | ⟨_, answer⟩
  · cases answer.symm.trans refused
  · cases answer.symm.trans refused
    exact ⟨stem, rfl⟩
  · cases answer.symm.trans refused

/-- What a sound scanner answers to a character behind the beginning of its clause is about bytes up to the end
of the character. -/
theorem Sound.answersWithin (h : scanner.Sound) (ordered : scanner.clauseStart ≤ offset) :
    AnswersWithin (offset + c.utf8Size) (scanner.offer offset c).1 := by
  unfold Scanner.offer
  split
  · next taken =>
    cases h.takes taken with
    | literal | opens | grows | escapes => trivial
    | closes legal digit conversion inside => exact ⟨inside, Nat.le_refl _⟩
  · next failure failed =>
    cases failure with
    | format error =>
      obtain ⟨stem, rfl⟩ := h.exists_refusal failed
      exact stem.refusal_within c offset
    | fault fault =>
      have inverted := lt_of_step_eq_fault failed
      omega

/-- The beginning of a clause is only ever moved to the offset of a character. -/
private theorem Sound.clauseStart_offer (h : scanner.Sound) (offset : Nat) (c : Char) :
    (scanner.offer offset c).2.clauseStart = scanner.clauseStart ∨ (scanner.offer offset c).2.clauseStart = offset := by
  unfold Scanner.offer
  split
  · next taken =>
    cases h.takes taken with
    | opens => exact .inr rfl
    | literal | grows | escapes | closes => exact .inl rfl
  · exact .inl rfl

private theorem after_append (scanner : Scanner) (front back : List (Nat × Char)) :
    scanner.after (front ++ back) = (scanner.after front).after back := List.foldl_append

private theorem after_concat (scanner : Scanner) (calls : List (Nat × Char)) (call : Nat × Char) :
    scanner.after (calls ++ [call]) = ((scanner.after calls).offer call.1 call.2).2 := after_append _ _ _

private theorem sound_after (calls : List (Nat × Char)) : (start.after calls).Sound := (Sound.outside 0).after calls

/-- No clause begins behind a byte that no call is behind. -/
private theorem clauseStart_after_le {calls : List (Nat × Char)} {stop : Nat} (h : ∀ call ∈ calls, call.1 ≤ stop) :
    (start.after calls).clauseStart ≤ stop := by
  induction calls using List.reverseRecOn with
  | nil => exact Nat.zero_le stop
  | append_singleton calls call ih =>
    rw [after_concat]
    rcases (sound_after calls).clauseStart_offer call.1 call.2 with same | moved
    · rw [same]
      exact ih fun other member => h other (List.mem_append_left _ member)
    · rw [moved]
      exact h call (List.mem_append_right _ (List.mem_singleton_self call))

/-- Every answer is that of the scanner as the calls before have left it. -/
private theorem mem_trace {calls : List (Nat × Char)} {answer : Result Step × Scanner}
    (h : answer ∈ scanner.trace calls) :
    ∃ before call later, calls = before ++ call :: later ∧ answer = (scanner.after before).offer call.1 call.2 := by
  induction calls generalizing scanner with
  | nil => cases h
  | cons call calls ih =>
    rcases List.mem_cons.mp h with rfl | later
    · exact ⟨[], call, calls, rfl, rfl⟩
    · obtain ⟨before, other, rest, rfl, same⟩ := ih later
      exact ⟨call :: before, other, rest, rfl, same⟩

theorem StaysInside.concat {calls : List (Nat × Char)} (h : scanner.StaysInside calls) {call : Nat × Char}
    (inside : (scanner.after (calls ++ [call])).position ≠ .outside) : scanner.StaysInside (calls ++ [call]) := by
  intro front before
  rcases List.prefix_concat_iff.mp before with rfl | earlier
  · exact inside
  · exact h front earlier

/-- Only a percent sign opens a clause, which then begins there. -/
private theorem Sound.offer_opens (h : scanner.Sound) (outside : scanner.position = .outside)
    (opened : (scanner.offer offset c).2.position ≠ .outside) :
    c = '%' ∧ (scanner.offer offset c).2.clauseStart = offset := by
  unfold Scanner.offer at opened ⊢
  split at opened
  · next taken =>
    cases h.takes taken with
    | literal | escapes | closes => exact absurd rfl opened
    | opens => exact ⟨rfl, rfl⟩
    | grows => exact absurd outside (Stem.position_ne_outside _)
  · exact absurd outside opened

/-- A clause that stays open keeps its beginning. -/
private theorem Sound.offer_stays (h : scanner.Sound) (inside : scanner.position ≠ .outside)
    (stays : (scanner.offer offset c).2.position ≠ .outside) :
    (scanner.offer offset c).2.clauseStart = scanner.clauseStart := by
  unfold Scanner.offer at stays ⊢
  split at stays
  · next taken =>
    cases h.takes taken with
    | literal | opens => exact absurd rfl inside
    | grows => rfl
    | escapes | closes => exact absurd rfl stays
  · rfl

/-- The clause that is open after the calls was opened by the percent sign at its beginning, and has been
open since. -/
structure OpenedBy (calls before later : List (Nat × Char)) : Prop where
  split : calls = before ++ ((start.after calls).clauseStart, '%') :: later
  outside : (start.after before).position = .outside
  stays : (start.after (before ++ [((start.after calls).clauseStart, '%')])).StaysInside later

private theorem exists_openedBy {calls : List (Nat × Char)} (inside : (start.after calls).position ≠ .outside) :
    ∃ before later, OpenedBy calls before later := by
  -- From the right: the last call opens the clause, or the clause is the one that was open before it.
  induction calls using List.reverseRecOn with
  | nil => exact absurd rfl inside
  | append_singleton calls call ih =>
    obtain ⟨offset, c⟩ := call
    have here := inside
    rw [after_concat] at here
    by_cases outside : (start.after calls).position = .outside
    · obtain ⟨rfl, opened⟩ := (sound_after calls).offer_opens outside here
      rw [← after_concat start calls (offset, '%')] at opened
      refine ⟨calls, [], by rw [opened], outside, ?_⟩
      rw [opened]
      intro front before
      rw [List.prefix_nil.mp before]
      exact inside
    · obtain ⟨before, later, split, closed, stays⟩ := ih outside
      have kept := (sound_after calls).offer_stays outside here
      rw [← after_concat start calls (offset, c)] at kept
      refine ⟨before, later ++ [(offset, c)], ?_, closed, ?_⟩
      · rw [kept, ← List.cons_append, ← List.append_assoc, ← split]
      · rw [kept]
        apply stays.concat
        have whole : before ++ [((start.after calls).clauseStart, '%')] ++ (later ++ [(offset, c)]) =
            calls ++ [(offset, c)] := by
          conv_rhs => rw [split]
          simp
        rw [← after_append, whole]
        exact inside

/-- What is said about the bytes of a text whose characters are offered one after the other, whatever is
refused in between. -/
structure KeepsOffsets (calls : List (Nat × Char)) : Prop where
  /-- No answer is a broken promise, and none is about bytes that are not there. -/
  answers : ∀ answer ∈ start.trace calls, AnswersWithin maxByteCount answer.1
  /-- A clause that is open begins with its percent sign. -/
  opened : (start.after calls).position ≠ .outside → ∃ before later, OpenedBy calls before later
  /-- The end of the text is not before the beginning of a clause that is open. -/
  unfinished : (start.after calls).position ≠ .outside → ∀ stop, (∀ call ∈ calls, call.1 ≤ stop) →
    ∃ error, (start.after calls).finish stop = .error error ∧
      error.span = .ok (some ⟨(start.after calls).clauseStart, stop⟩) ∧ (start.after calls).clauseStart ≤ stop

theorem keepsOffsets {calls : List (Nat × Char)} (ordered : calls.Pairwise fun call later => call.1 ≤ later.1)
    (room : ∀ call ∈ calls, call.1 + 4 ≤ maxByteCount) : KeepsOffsets calls where
  answers answer member := by
    obtain ⟨before, ⟨offset, c⟩, later, rfl, rfl⟩ := mem_trace member
    obtain ⟨-, -, earlier⟩ := List.pairwise_append.mp ordered
    have behind := clauseStart_after_le fun call member => earlier call member (offset, c) List.mem_cons_self
    have fits := room (offset, c) (List.mem_append_right _ List.mem_cons_self)
    have narrow := c.utf8Size_le_four
    exact ((sound_after before).answersWithin behind).mono (Nat.le_trans (Nat.add_le_add_left narrow offset) fits)
  opened := exists_openedBy
  unfinished inside stop behind := by
    have start := clauseStart_after_le behind
    refine ⟨.unterminated (Scanner.start.after calls).clauseStart stop, ?_, ?_, start⟩
    · unfold finish
      split
      · next outside => exact absurd outside inside
      · rfl
    · rw [FormatError.span, Span.between_of_le start]
      rfl

end Scanner

end BraceTemplate
