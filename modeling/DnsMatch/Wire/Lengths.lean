import DnsMatch.Wire.Walk

/-! # The octets that lead the walk

Behind the header the walk goes by octets of two kinds: those that it reads as
the length of a label, of which the last one ends the name or begins a pointer,
and those of each RDLENGTH. Where they stand depends on those before them, and
a walk that fails has read only some of them. -/

namespace DnsMatch.Wire

/-- Whether skipping the name at a cursor reads the octet at an offset as the length of a label. -/
inductive NameLengthAt (octets : Octets) : (cursor offset : Nat) → Prop
  | here {cursor next : Nat} {labelLength : UInt8}
      (length : readU8 octets cursor .labelLength = .ok (labelLength, next)) :
      NameLengthAt octets cursor cursor
  | later {cursor next labelEnd offset : Nat} {labelLength : UInt8}
      (length : readU8 octets cursor .labelLength = .ok (labelLength, next))
      (nonzero : labelLength ≠ 0) (isLabel : ¬labelLength > maxLabelLength)
      (label : skip octets next labelLength.toNat .label = .ok labelEnd)
      (rest : NameLengthAt octets labelEnd offset) :
      NameLengthAt octets cursor offset

/-- Whether passing the record at `start` reads the octet at an offset as part of a length. -/
inductive RecordLengthAt (octets : Octets) (start offset : Nat) : Prop
  | owner (length : NameLengthAt octets start offset)
  | rdlength {ownerEnd ttlEnd rdataStart : Nat} {rdlength : UInt16}
      (owner : skipName octets start = .ok ownerEnd)
      (ttl : ttlEnd = ownerEnd + typeAndClassLength + ttlLength)
      (read : readU16 octets ttlEnd .rdlength = .ok (rdlength, rdataStart))
      (le : ttlEnd ≤ offset) (lt : offset < rdataStart)

/-- Whether passing so many entries one behind the other reads the octet at an offset as part of a
length, if `lengthAt` says it of each entry and `pass` gives its end. -/
inductive RowLengthAt (lengthAt : Nat → Nat → Prop) (pass : Nat → Except Truncation Nat) :
    (count cursor offset : Nat) → Prop
  | first {count cursor offset : Nat} (length : lengthAt cursor offset) :
      RowLengthAt lengthAt pass (count + 1) cursor offset
  | later {count cursor next offset : Nat} (passed : pass cursor = .ok next)
      (rest : RowLengthAt lengthAt pass count next offset) :
      RowLengthAt lengthAt pass (count + 1) cursor offset

/-- The cursor just past the record at `start`. -/
def recordEnd (octets : Octets) (start : Nat) : Except Truncation Nat :=
  (skipRecord octets start).result.map (·.stop)

/-- Whether the walk reads the octet at an offset as part of a length. -/
inductive LengthAt (octets : Octets) (offset : Nat) : Prop
  | question {counts : Counts} (header : Counts.read octets = .ok counts)
      (length : RowLengthAt (NameLengthAt octets) (skipQuestion octets) counts.qdcount.toNat
        headerLength offset)
  | record {counts : Counts} {recordsStart : Nat} (header : Counts.read octets = .ok counts)
      (questions : skipQuestions octets counts.qdcount.toNat headerLength = .ok recordsStart)
      (length : RowLengthAt (RecordLengthAt octets) (recordEnd octets) counts.records
        recordsStart offset)

end DnsMatch.Wire
