import BraceTemplate.Transcode

/-! Output as data: single calls on a destination, and the operations that are made of them, with runs
that go on after a refusal. -/
namespace BraceTemplate

/-- One call on a destination. -/
inductive Chunk where
  | char (c : Char)
  | text (text : String)
  | decimal (n : UInt32)
  deriving DecidableEq, Repr

namespace Chunk

variable {σ : Type} [Sink σ]

def write : Chunk → Write σ Unit
  | char c => Sink.writeChar c
  | text written => Sink.writeText written
  | decimal n => Sink.writeDecimal n

def chars : Chunk → List Char
  | char c => [c]
  | text written => written.toList
  | decimal n => Decimal.digits32 n

/-- Makes calls one after the other, up to the first that is refused. -/
def writeAll (chunks : List Chunk) : Write σ Unit := forM chunks write

def output (chunks : List Chunk) : List Char := chunks.flatMap chars

theorem writeAll_nil : (writeAll [] : Write σ Unit) = pure () := List.forM_nil

theorem writeAll_cons (chunk : Chunk) (chunks : List Chunk) :
    (writeAll (chunk :: chunks) : Write σ Unit) = (do chunk.write; writeAll chunks) := List.forM_cons

theorem writeAll_singleton (chunk : Chunk) : (writeAll [chunk] : Write σ Unit) = chunk.write := by
  rw [writeAll_cons, writeAll_nil]
  exact bind_pure_unit

theorem writeAll_append (front back : List Chunk) :
    (writeAll (front ++ back) : Write σ Unit) = (do writeAll front; writeAll back) := List.forM_append

@[simp] theorem output_nil : output [] = [] := rfl

@[simp] theorem output_cons (chunk : Chunk) (chunks : List Chunk) :
    output (chunk :: chunks) = chunk.chars ++ output chunks := List.flatMap_cons

@[simp] theorem output_append (front back : List Chunk) :
    output (front ++ back) = output front ++ output back := List.flatMap_append

end Chunk

/-- Something that can be written to any destination. -/
inductive Operation where
  | char (c : Char)
  | text (text : String)
  | decimal (n : UInt32)
  | placeholder (destination : Destination) (field : Field)
  /-- The template for a format text, as far as it goes. -/
  | template (source : String)
  deriving DecidableEq, Repr

namespace Operation

variable {σ : Type} [Sink σ]

/-- Writes what the operation says. -/
def write : Operation → Write σ Unit
  | char c => Sink.writeChar c
  | text written => Sink.writeText written
  | decimal n => Sink.writeDecimal n
  | placeholder destination field => Placeholder.write destination field
  | template source => transcode source

/-- The results of operations one after the other, each with the destination as it is then. -/
def trace (sink : σ) : List Operation → List (Result Unit × σ)
  | [] => []
  | operation :: rest =>
    let (result, next) := operation.write.attempt sink
    (result, next) :: trace next rest

theorem trace_cons {operation : Operation} {sink next : σ} {result : Result Unit}
    (h : operation.write.attempt sink = (result, next)) (rest : List Operation) :
    trace sink (operation :: rest) = (result, next) :: trace next rest := by
  rw [trace, h]

end Operation

end BraceTemplate
