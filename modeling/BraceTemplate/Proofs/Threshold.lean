import BraceTemplate.Proofs.Capacity

/-! The smallest buffer that is enough. It has room for exactly what is written before the conversion ends or
meets its fault, every smaller one is refused, and retries with the capacity that a refusal requires end there. -/
namespace BraceTemplate

/-- The text that is written for `source` where there is room for all of it, before the conversion ends or
meets its fault. -/
def writtenText (source : String) : String := ((transcode source).attempt TextSink.empty).2.text

/-- What a caller learns from a conversion into `storage`: the number of bytes written, or the failure. -/
def countInto (source : String) (storage : ByteArray) : Result Nat :=
  (convertInto source storage).1.map fun _ => (convertInto source storage).2.size

/-- From storage to storage by `n` retries, each into storage of the size that the refusal before it
required, whatever that storage holds. -/
inductive Retried (source : String) : ByteArray → Nat → ByteArray → Prop where
  | refl (storage : ByteArray) : Retried source storage 0 storage
  | retry {storage next last : ByteArray} {limit n : Nat}
    (refused : countInto source storage = .error (.format (.capacityExceeded limit next.size)))
    (later : Retried source next n last) : Retried source storage (n + 1) last

variable {source : String}

theorem Reading.writtenText {items : List Item} {ending : Ending} (h : Reading source.toList items ending) :
    writtenText source = String.ofList (items.flatMap Item.template) := by
  rw [BraceTemplate.writtenText, h.attempt TextSink.unbounded]
  exact String.empty_append

theorem utf8ByteSize_writtenText (source : String) : (writtenText source).utf8ByteSize = writtenBytes source := by
  obtain ⟨items, ending, reading⟩ := exists_reading source.toList
  rw [reading.writtenText, reading.writtenBytes, Text.utf8ByteSize_ofList]

/-- A converted text is written as a whole. -/
theorem eq_writtenText_of_convert {out : String} (ok : convert source = .ok out) : out = writtenText source := by
  obtain ⟨items, spell, text⟩ := exists_spell_of_convert ok
  rw [spell.reading.writtenText, ← text, String.ofList_toList]

/-- Storage with enough room is filled with the written text, and the result is that of the growing
conversion. -/
private theorem countInto_of_le {storage : ByteArray} (room : (writtenText source).utf8ByteSize ≤ storage.size) :
    countInto source storage = (convert source).map String.utf8ByteSize ∧
      (convertInto source storage).2.storage.extract 0 (writtenText source).utf8ByteSize =
        (writtenText source).toByteArray := by
  obtain ⟨items, ending, reading⟩ := exists_reading source.toList
  rw [utf8ByteSize_writtenText] at room
  obtain ⟨next, conversion, laid⟩ := reading.convertInto_of_le room
  rw [← reading.writtenText] at laid
  have size := laid.size_eq
  constructor
  · rw [countInto, conversion, reading.convert, ← reading.writtenText]
    cases reading.outcome with
    | error error => rfl
    | ok _ => exact congrArg Except.ok size
  · rw [conversion, ← size]
    exact laid.written_eq

private theorem countInto_of_lt {storage : ByteArray} (full : storage.size < (writtenText source).utf8ByteSize) :
    ∃ required, countInto source storage = .error (.format (.capacityExceeded storage.size required)) ∧
      storage.size < required ∧ required ≤ (writtenText source).utf8ByteSize := by
  obtain ⟨items, ending, reading⟩ := exists_reading source.toList
  rw [utf8ByteSize_writtenText] at full ⊢
  obtain ⟨required, next, conversion, -, more, bounded⟩ := reading.convertInto_of_lt full
  refine ⟨required, ?_, more, bounded⟩
  rw [countInto, conversion]
  rfl

/-- Only storage without enough room is refused for its size. -/
private theorem lt_of_countInto_eq {storage : ByteArray} {limit required : Nat}
    (refused : countInto source storage = .error (.format (.capacityExceeded limit required))) :
    storage.size < required ∧ required ≤ (writtenText source).utf8ByteSize := by
  rcases Nat.lt_or_ge storage.size (writtenText source).utf8ByteSize with full | room
  · obtain ⟨other, reported, bounds⟩ := countInto_of_lt full
    rw [refused] at reported
    cases reported
    exact bounds
  · rw [(countInto_of_le room).1, Result.map_eq_error_iff] at refused
    exact absurd refused (convert_ne_capacityExceeded source limit required)

/-- Each retry is into larger storage, and none into more than is needed. -/
theorem Retried.size_le {storage last : ByteArray} {n : Nat} (h : Retried source storage n last) :
    storage.size + n ≤ last.size ∧ last.size ≤ max storage.size (writtenText source).utf8ByteSize := by
  induction h with
  | refl => exact ⟨Nat.le_refl _, Nat.le_max_left _ _⟩
  | retry refused _ ih =>
    obtain ⟨more, bounded⟩ := lt_of_countInto_eq refused
    omega

private theorem exists_retried (source : String) (storage : ByteArray) :
    ∃ n last, Retried source storage n last ∧ (writtenText source).utf8ByteSize ≤ last.size := by
  -- The bytes that are still missing become fewer with every retry.
  induction missing : (writtenText source).utf8ByteSize - storage.size using Nat.strongRecOn generalizing storage with
  | ind missing ih =>
    rcases Nat.lt_or_ge storage.size (writtenText source).utf8ByteSize with full | room
    · obtain ⟨required, refused, more, bounded⟩ := countInto_of_lt full
      have size : (zeroBytes required).size = required := size_zeroBytes required
      obtain ⟨n, last, later, room⟩ := ih _ (by omega) (zeroBytes required) rfl
      rw [← size] at refused
      exact ⟨n + 1, last, .retry refused later, room⟩
    · exact ⟨0, storage, .refl storage, room⟩

/-- Storage is enough exactly if it has room for the text that is written where there is always room, which is
the template of a text that is converted. Then the result is that of the growing conversion, and the text
stands at the beginning of the storage. Any other storage is refused with a requirement between its size and
that of the text. So a result that is no refusal stays the same in larger storage, no error but that of the
growing conversion is reported beside refusals, and retries grow until they reach that result, without ever
asking for more than the text takes. -/
theorem convertInto_threshold (source : String) :
    (∀ out, convert source = .ok out → out = writtenText source) ∧
    (∀ storage : ByteArray, (writtenText source).utf8ByteSize ≤ storage.size →
      countInto source storage = (convert source).map String.utf8ByteSize ∧
        (convertInto source storage).2.storage.extract 0 (writtenText source).utf8ByteSize =
          (writtenText source).toByteArray) ∧
    (∀ storage : ByteArray, storage.size < (writtenText source).utf8ByteSize →
      ∃ required, countInto source storage = .error (.format (.capacityExceeded storage.size required)) ∧
        storage.size < required ∧ required ≤ (writtenText source).utf8ByteSize) ∧
    (∀ storage larger : ByteArray, storage.size ≤ larger.size →
      (∀ limit required, countInto source storage ≠ .error (.format (.capacityExceeded limit required))) →
        countInto source larger = countInto source storage) ∧
    (∀ storage failure, countInto source storage = .error failure →
      convert source = .error failure ∨ ∃ limit required, failure = .format (.capacityExceeded limit required)) ∧
    (∀ storage n last, Retried source storage n last →
      storage.size + n ≤ last.size ∧ last.size ≤ max storage.size (writtenText source).utf8ByteSize) ∧
    ∀ storage, ∃ n last, Retried source storage n last ∧
      countInto source last = (convert source).map String.utf8ByteSize := by
  refine ⟨fun _ => eq_writtenText_of_convert, fun _ => countInto_of_le, fun _ => countInto_of_lt, ?_, ?_,
    fun _ _ _ => Retried.size_le, ?_⟩
  · intro storage larger wider accepted
    have room : (writtenText source).utf8ByteSize ≤ storage.size := by
      apply Nat.le_of_not_lt
      intro full
      obtain ⟨required, refused, -⟩ := countInto_of_lt full
      exact accepted _ _ refused
    rw [(countInto_of_le room).1, (countInto_of_le (Nat.le_trans room wider)).1]
  · intro storage failure failed
    rcases Nat.lt_or_ge storage.size (writtenText source).utf8ByteSize with full | room
    · obtain ⟨required, refused, -⟩ := countInto_of_lt full
      rw [refused] at failed
      exact .inr ⟨storage.size, required, (Except.error.inj failed).symm⟩
    · rw [(countInto_of_le room).1, Result.map_eq_error_iff] at failed
      exact .inl failed
  · intro storage
    obtain ⟨n, last, retried, room⟩ := exists_retried source storage
    exact ⟨n, last, retried, (countInto_of_le room).1⟩

end BraceTemplate
