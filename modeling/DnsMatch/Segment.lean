import DnsMatch.Wire.Walk

/-! # Segments

The TTLs of a message divide the rest of it into segments: one up to each TTL,
and one from behind the last TTL to the end. There is always one segment more
than there are TTLs, and a segment may be empty. Offsets are taken as they
come, so where they are out of order a segment may also end before it starts. -/

namespace DnsMatch

/-- The offsets from `start` up to, but not including, `stop`. -/
structure Segment where
  start : Nat
  stop : Nat
deriving DecidableEq, Repr

namespace Segment

/-- Whether an offset is in the segment. -/
def contains (segment : Segment) (offset : Nat) : Bool :=
  segment.start ≤ offset && offset < segment.stop

/-- The segment written as a half-open interval. -/
def text (segment : Segment) : String :=
  "[" ++ toString segment.start ++ ", " ++ toString segment.stop ++ ")"

/-- Where the segment behind a TTL starts. -/
def startAfter (ttlOffset : Nat) : Nat :=
  Offset.addClamped ttlOffset Wire.ttlLength

/-- The segments from `start` on, around the TTLs at the given offsets. -/
def listFrom (length start : Nat) : List Nat → List Segment
  | [] => [⟨start, length⟩]
  | ttlOffset :: ttlOffsets =>
    ⟨start, ttlOffset⟩ :: listFrom length (startAfter ttlOffset) ttlOffsets

/-- The segments of a message of a given length with TTLs at the given offsets. -/
def list (length : Nat) (ttlOffsets : List Nat) : List Segment :=
  listFrom length 0 ttlOffsets

@[simp] theorem length_listFrom (length start : Nat) (ttlOffsets : List Nat) :
    (listFrom length start ttlOffsets).length = ttlOffsets.length + 1 := by
  induction ttlOffsets generalizing start with
  | nil => rfl
  | cons ttlOffset ttlOffsets ih => simp [listFrom, ih]

end Segment

end DnsMatch
