import BraceTemplate.Json.Exchange

/-! The library for C callers: texts that end in a zero byte, buffers that the caller owns, and
status codes. A null pointer is an absent argument. -/
namespace BraceTemplate.CInterface

/-- The status of an absent argument or one that is not UTF-8. -/
def invalidArgument : Int := -1

/-- The status of a format text that does not convert. -/
def malformedFormat : Int := -2

/-- The status of output that does not fit, together with its zero byte. -/
def noCapacity : Int := -3

/-- The status of a broken promise inside the library. -/
def brokenPromise : Int := -4

/-- The bytes before the first zero byte. -/
def beforeZero (memory : ByteArray) : ByteArray :=
  ⟨(memory.data.toList.takeWhile (· != 0)).toArray⟩

/-- The text that an argument points to. -/
def readText? (argument : Option ByteArray) : Option String :=
  argument.bind fun memory => String.fromUTF8? (beforeZero memory)

/-- A text for the caller. One that holds the zero character cannot be handed over. -/
def handOver? (text : String) : Option String :=
  if text.toList.contains '\x00' then none else some text

/-- The status that reports a failure. -/
def status : Failure → Int
  | .format error => if error.isInputError then malformedFormat else noCapacity
  | .fault _ => brokenPromise

/-- A byte count as a return value. A count that is too large for one is reported as lack of
capacity. -/
def byteCount (n : Nat) : Int := if n < UInt64.size / 2 then n else noCapacity

def faultReport (fault : Fault) : Json :=
  .object [("error", .string "ffi_panic"), ("message", .string fault.message), ("ok", .bool false)]

/-- The envelope of the conversion of the argument, as JSON text. -/
def convert (argument : Option ByteArray) : Option String := do
  let source ← readText? argument
  match Envelope.build source with
  | .ok envelope => handOver? envelope.toJson.compact
  | .error fault => handOver? (faultReport fault).compact

/-- The explanation registered for the argument. -/
def explain (argument : Option ByteArray) : Option String := do
  handOver? (← Diagnostic.explain? (← readText? argument))

/-- The bytes that the converted argument takes, with its zero byte. -/
def estimate (argument : Option ByteArray) : Int :=
  match readText? argument with
  | none => invalidArgument
  | some source =>
    match estimateCapacity source .exact with
    | .ok size => byteCount (size + 1)
    | .error failure => status failure

/-- `memory` with a zero byte at `offset`. -/
def terminate? (memory : ByteArray) (offset : Nat) : Option ByteArray :=
  if h : offset < memory.size then some (memory.set offset 0 h) else none

/-- Converts `source` into `memory`, whose last byte is kept free for the zero byte. A failure
leaves an empty text there. -/
def writeText (source : String) (memory : ByteArray) : Int × ByteArray :=
  let last := memory.extract (memory.size - 1) memory.size
  let close (result : Int) (buffer : FixedBuffer) (offset : Nat) :=
    match terminate? (buffer.storage ++ last) offset with
    | some closed => (result, closed)
    | none => (brokenPromise, buffer.storage ++ last)
  match BraceTemplate.convertInto source (memory.extract 0 (memory.size - 1)) with
  | (.ok _, buffer) => close (byteCount buffer.size) buffer buffer.size
  | (.error (.format error), buffer) => close (status (.format error)) buffer 0
  | (.error (.fault _), buffer) => (brokenPromise, buffer.storage ++ last)

/-- Converts the argument into the caller's memory. Gives the byte count of the text or a status,
and the memory afterwards. The argument is looked at first, then the memory. -/
def convertInto (argument memory : Option ByteArray) : Int × Option ByteArray :=
  match readText? argument, memory with
  | none, memory => (invalidArgument, memory)
  | some _, none => (invalidArgument, none)
  | some source, some memory =>
    if memory.size = 0 then (noCapacity, some memory)
    else
      let (result, after) := writeText source memory
      (result, some after)

end BraceTemplate.CInterface
