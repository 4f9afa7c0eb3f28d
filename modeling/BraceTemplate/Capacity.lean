import BraceTemplate.Transcode

/-! Sizing a buffer before the template is written into it, and conversion into a buffer so sized. -/
namespace BraceTemplate

/-- How the capacity of a buffer is chosen. -/
inductive CapacityPolicy where
  /-- The bytes of the template, counted by writing it once to nowhere. -/
  | exact
  /-- Twice the bytes of the format text, which no template exceeds. -/
  | expansionBound
  /-- 255 bytes for a short format text, three times its bytes for a longer one. -/
  | legacy
  deriving DecidableEq, Repr

namespace CapacityPolicy

def all : List CapacityPolicy := [.exact, .expansionBound, .legacy]

/-- The policy that is used where none is chosen. -/
def standard : CapacityPolicy := .exact

def name : CapacityPolicy → String
  | exact => "exact"
  | expansionBound => "expansion-bound"
  | legacy => "legacy"

def ofName? (name : String) : Option CapacityPolicy := all.find? (·.name == name)

end CapacityPolicy

/-- The largest byte count. -/
def maxByteCount : Nat := UInt64.size - 1

/-- A multiple of a byte count, or the largest one where it would be exceeded. -/
def scaleByteCount (count factor : Nat) : Nat := min (count * factor) maxByteCount

/-- The capacity that `policy` chooses for `source`. Only the exact one reads the text. -/
def estimateCapacity (source : String) : CapacityPolicy → Result Nat
  | .exact => do
    let (_, sink) ← (transcode source).run ByteCount.zero
    .ok sink.count
  | .expansionBound => .ok (scaleByteCount source.utf8ByteSize 2)
  | .legacy =>
    .ok (if source.utf8ByteSize < 64 then 255 else scaleByteCount source.utf8ByteSize 3)

/-- Storage of `capacity` zero bytes. -/
def zeroBytes (capacity : Nat) : ByteArray := ⟨Array.replicate capacity 0⟩

/-- The template for `source` in a buffer of its own. The capacity is that of `hint`, but not more
than any template can take, or else chosen by `policy`. -/
def convertFixed (source : String) (hint : Option Nat) (policy : CapacityPolicy) :
    Result FixedBuffer := do
  let capacity ← match hint with
    | some hint => min hint <$> estimateCapacity source .expansionBound
    | none => estimateCapacity source policy
  let (result, buffer) := convertInto source (zeroBytes capacity)
  result.map fun _ => buffer

end BraceTemplate
