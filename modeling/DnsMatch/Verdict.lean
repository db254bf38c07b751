import DnsMatch.Segment
import DnsMatch.Text.Hex

/-! # Comparing two messages around TTLs

Two messages match if they have the same octets in every segment that the TTLs
leave. The TTL offsets are those of the expected message; nothing is assumed
about the actual one. The last segment takes in whatever is left of each
message, so that a difference in length shows there at the latest. Any list of
offsets is allowed: a segment that cannot be cut out of either message does not
match. -/

namespace DnsMatch

/-- The first segment in which two messages differ, and what there is of it in each. -/
structure Mismatch where
  segment : Segment
  expected : Octets
  actual : Octets
deriving DecidableEq, Repr

def Mismatch.text (mismatch : Mismatch) : String :=
  "octets " ++ mismatch.segment.text ++ " differ\nexpected: " ++
    Text.Hex.spaced mismatch.expected ++ "\nactual:   " ++ Text.Hex.spaced mismatch.actual

inductive Verdict where
  | equivalent
  | different (mismatch : Mismatch)
deriving DecidableEq, Repr

namespace Verdict

/-- Compares one segment; `actualStop` is where it ends in the actual message. -/
def ofSegment (expected actual : Octets) (segment : Segment) (actualStop : Nat) : Verdict :=
  let inExpected := expected.slice? segment.start segment.stop
  if inExpected.isSome ∧ inExpected = actual.slice? segment.start actualStop then .equivalent
  else
    .different {
      segment
      expected := expected.clamp segment.start segment.stop
      actual := actual.clamp segment.start actualStop }

/-- Compares the segments from `start` on, around the TTLs at the given offsets. -/
def compareFrom (expected actual : Octets) (start : Nat) : List Nat → Verdict
  | [] => ofSegment expected actual ⟨start, expected.size⟩ actual.size
  | ttlOffset :: ttlOffsets =>
    match ofSegment expected actual ⟨start, ttlOffset⟩ ttlOffset with
    | .equivalent =>
      compareFrom expected actual (Segment.startAfter ttlOffset) ttlOffsets
    | .different mismatch => .different mismatch

/-- Compares two messages everywhere but in the TTLs at the given offsets. -/
def compare (expected actual : Octets) (ttlOffsets : List Nat) : Verdict :=
  compareFrom expected actual 0 ttlOffsets

end Verdict

end DnsMatch
