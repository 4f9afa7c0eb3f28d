import BraceTemplate.Grammar
import BraceTemplate.Proofs.Decimal
import BraceTemplate.Sink.Operation
import BraceTemplate.Text.Utf8

/-! The calls that placeholders and items make. Everything that is written to a destination is a sequence of
calls on it, so that destinations are compared by what the same calls do to them. -/
namespace BraceTemplate

namespace Placeholder

/-- The calls that write what stands between the tag and the closing brace. -/
def layoutChunks (alignment : Option Alignment) (width precision : Option UInt32) : List Chunk :=
  .char ':' :: (alignment.toList.map fun alignment => .text alignment.text) ++ width.toList.map .decimal
    ++ precision.toList.flatMap fun precision => [.char '.', .decimal precision]

def chunks (destination : Destination) (field : Field) : List Chunk :=
  [.char '\x7b', .text destination.tag]
    ++ (match field.flags.alignment?, field.width, field.precision with
      | none, none, none => []
      | alignment, width, precision => layoutChunks alignment width precision)
    ++ [.char '\x7d']

variable {σ : Type} [Sink σ]

private theorem writeLayout_eq (alignment : Option Alignment) (width precision : Option UInt32) :
    (writeLayout alignment width precision : Write σ Unit) =
      Chunk.writeAll (layoutChunks alignment width precision) := by
  cases alignment <;> cases width <;> cases precision <;>
    simp [writeLayout, layoutChunks, Chunk.writeAll, Chunk.write]

theorem write_eq (destination : Destination) (field : Field) :
    (write destination field : Write σ Unit) = Chunk.writeAll (chunks destination field) := by
  unfold write chunks
  generalize field.flags.alignment? = alignment
  cases alignment <;> cases field.width <;> cases field.precision <;>
    simp [writeLayout_eq, Chunk.writeAll, Chunk.write]

end Placeholder

namespace Item

def chunks : Item → List Chunk
  | literal c => [.char c]
  | percent => [.char '%']
  | clause written => Placeholder.chunks written.conversion.destination written.field

end Item

namespace Clause

/-- The placeholder that is written for a legal clause is the one that its spelling stands for. -/
theorem Legal.output_chunks {clause : Clause} (h : clause.Legal) :
    Chunk.output (Placeholder.chunks clause.conversion.destination clause.field) = clause.template := by
  obtain ⟨flags, width, precision, length, conversion⟩ := clause
  have digits : width ≠ [] →
      Decimal.digits32 (UInt32.ofNat (Decimal.valueFrom 0 width)) = Decimal.spell width := by
    intro hne
    rw [Decimal.digits32_ofNat h.width_lt, Decimal.digits_valueFrom hne h.width_head]
  have fraction (ds : List (Fin 10)) (hp : precision = some ds) :
      Decimal.digits32 (UInt32.ofNat (Decimal.valueFrom 0 ds)) = Decimal.digits (Decimal.valueFrom 0 ds) :=
    Decimal.digits32_ofNat (h.precision_lt ds hp)
  unfold Placeholder.chunks template layout field
  generalize (FlagSet.ofList flags).alignment? = alignment
  cases width with
  | nil =>
    cases precision with
    | none => cases alignment with
      | none => simp [Chunk.chars]
      | some side => cases side <;> simp [Chunk.chars, Placeholder.layoutChunks, Alignment.text]
    | some ds => cases alignment <;> simp [Chunk.chars, Placeholder.layoutChunks, fraction ds rfl]
  | cons d ds =>
    have written := digits (List.cons_ne_nil d ds)
    cases precision with
    | none => cases alignment <;> simp [Chunk.chars, Placeholder.layoutChunks, written]
    | some es => cases alignment <;> simp [Chunk.chars, Placeholder.layoutChunks, written, fraction es rfl]

end Clause

namespace Item

theorem Legal.output_chunks {item : Item} (h : item.Legal) : Chunk.output item.chunks = item.template := by
  cases item with
  | literal c => rfl
  | percent => rfl
  | clause clause => exact Clause.Legal.output_chunks h

theorem output_flatMap_chunks {items : List Item} (h : ∀ item ∈ items, item.Legal) :
    Chunk.output (items.flatMap chunks) = items.flatMap template := by
  induction items with
  | nil => rfl
  | cons item items ih =>
    rw [List.flatMap_cons, List.flatMap_cons, Chunk.output_append, (h item (by simp)).output_chunks,
      ih fun other hm => h other (by simp [hm])]

end Item

namespace Text

theorem byteCount_singleton (c : Char) : byteCount [c] = c.utf8Size := rfl

theorem utf8ByteSize_ofList (chars : List Char) : (String.ofList chars).utf8ByteSize = byteCount chars := by
  induction chars with
  | nil => rfl
  | cons c chars ih =>
    rw [← List.singleton_append, String.ofList_append, String.utf8ByteSize_append, ih,
      byteCount_append, byteCount_singleton, ← String.singleton_eq_ofList, String.utf8ByteSize_singleton]

theorem byteCount_toList (text : String) : byteCount text.toList = text.utf8ByteSize := by
  rw [← utf8ByteSize_ofList, String.ofList_toList]

end Text

/-- A destination that takes every call, where `append` says what it then holds. -/
structure Sink.Unbounded {σ : Type} [Sink σ] (append : σ → List Char → σ) : Prop where
  nil : ∀ sink, append sink [] = sink
  concat : ∀ sink front back, append (append sink front) back = append sink (front ++ back)
  char : ∀ c sink, Sink.writeChar c sink = .ok () (append sink [c])
  text : ∀ text sink, Sink.writeText text sink = .ok () (append sink text.toList)
  decimal : ∀ n, (Sink.writeDecimal n : Write σ Unit) = forM (Decimal.digits32 n) Sink.writeChar

namespace Sink.Unbounded

variable {σ : Type} [Sink σ] {append : σ → List Char → σ}

private theorem chars (h : Unbounded append) (cs : List Char) (sink : σ) :
    (forM cs Sink.writeChar : Write σ Unit) sink = .ok () (append sink cs) := by
  induction cs generalizing sink with
  | nil => rw [List.forM_nil, h.nil]; rfl
  | cons c cs ih => rw [List.forM_cons, Write.bind_ok (h.char c sink), ih, h.concat]; rfl

theorem write (h : Unbounded append) (chunk : Chunk) (sink : σ) :
    (chunk.write : Write σ Unit) sink = .ok () (append sink chunk.chars) := by
  cases chunk with
  | char c => exact h.char c sink
  | text written => exact h.text written sink
  | decimal n => rw [Chunk.write, h.decimal, h.chars]; rfl

/-- Calls append their characters, whatever they are. -/
theorem writeAll (h : Unbounded append) (chunks : List Chunk) (sink : σ) :
    (Chunk.writeAll chunks : Write σ Unit) sink = .ok () (append sink (Chunk.output chunks)) := by
  induction chunks generalizing sink with
  | nil => rw [Chunk.writeAll_nil, Chunk.output_nil, h.nil]; rfl
  | cons chunk chunks ih =>
    rw [Chunk.writeAll_cons, Write.bind_ok (h.write chunk sink), ih, h.concat, Chunk.output_cons]

/-- Calls that are all made are followed by the outcome behind them. -/
theorem attempt (h : Unbounded append) (chunks : List Chunk) (outcome : Except FormatError Unit) (sink : σ) :
    Write.attempt (do Chunk.writeAll chunks; Write.ofResult (Result.ofError outcome)) sink =
      (Result.ofError outcome, append sink (Chunk.output chunks)) := by
  rw [Write.attempt, Write.bind_ok (h.writeAll _ _)]
  cases outcome <;> rfl

end Sink.Unbounded

theorem TextSink.unbounded :
    Sink.Unbounded fun (sink : TextSink) chars => ⟨sink.text ++ String.ofList chars⟩ where
  nil sink := by simp
  concat sink front back := by simp [String.append_assoc]
  char c sink := by
    rw [← String.singleton_eq_ofList, ← String.push_eq_append]
    rfl
  text text sink := by
    rw [String.ofList_toList]
    rfl
  decimal n := rfl

theorem ByteCount.unbounded :
    Sink.Unbounded fun (sink : ByteCount) chars => ⟨sink.count + Text.byteCount chars⟩ where
  nil sink := rfl
  concat sink front back := by simp [Nat.add_assoc]
  char c sink := rfl
  text text sink := by
    rw [Text.byteCount_toList]
    rfl
  decimal n := rfl

end BraceTemplate
