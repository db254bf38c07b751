/-! # Octet strings and offsets into them

A message is a string of octets, and a place in it is an offset: a number of
64 bits. Sums of offsets are taken in two ways. A reader that would pass the
largest offset must fail, so `Offset.add?` has no result there; a bound that
is only compared against may stay at the largest offset, which is what
`Offset.addClamped` does. -/

namespace DnsMatch

abbrev Octets := Array UInt8

namespace Offset

def max : Nat := UInt64.size - 1

/-- The offset `length` octets after `offset`, if it is still an offset. -/
def add? (offset length : Nat) : Option Nat :=
  if offset + length ≤ max then some (offset + length) else none

theorem add?_eq_some_iff {offset length stop : Nat} :
    add? offset length = some stop ↔ stop = offset + length ∧ offset + length ≤ max := by
  unfold add?
  split <;> simp_all [eq_comm]

/-- The offset `length` octets after `offset`, or the largest offset if the sum is beyond it. -/
def addClamped (offset length : Nat) : Nat :=
  min (offset + length) max

end Offset

namespace Octets

/-- The octet at an offset, and zero past the end. -/
def octetAt (octets : Octets) (offset : Nat) : UInt8 :=
  octets.getD offset 0

/-- The number that two octets spell in network byte order. -/
def u16At (octets : Octets) (offset : Nat) : UInt16 :=
  UInt16.ofNat ((octets.octetAt offset).toNat * 256 + (octets.octetAt (offset + 1)).toNat)

/-- The number that four octets spell in network byte order. -/
def u32At (octets : Octets) (offset : Nat) : UInt32 :=
  UInt32.ofNat ((octets.u16At offset).toNat * 65536 + (octets.u16At (offset + 2)).toNat)

/-- The two octets that spell a number in network byte order. -/
def ofU16 (value : UInt16) : List UInt8 :=
  [UInt8.ofNat (value.toNat / 256), UInt8.ofNat (value.toNat % 256)]

/-- The four octets that spell a number in network byte order. -/
def ofU32 (value : UInt32) : List UInt8 :=
  ofU16 (UInt16.ofNat (value.toNat / 65536)) ++ ofU16 (UInt16.ofNat (value.toNat % 65536))

/-- The octets at the offsets `[start, stop)`, if the string has all of them. -/
def slice? (octets : Octets) (start stop : Nat) : Option Octets :=
  if start ≤ stop ∧ stop ≤ octets.size then some (octets.extract start stop) else none

theorem slice?_eq_some_iff {octets part : Octets} {start stop : Nat} :
    octets.slice? start stop = some part ↔
      start ≤ stop ∧ stop ≤ octets.size ∧ part = octets.extract start stop := by
  unfold slice?
  split
  · next bounds => simp [bounds, eq_comm]
  · next bounds => exact ⟨by simp, fun h => absurd ⟨h.1, h.2.1⟩ bounds⟩

/-- As much of the octets at the offsets `[start, stop)` as there is. -/
def clamp (octets : Octets) (start stop : Nat) : Octets :=
  octets.extract start stop

end Octets

end DnsMatch
