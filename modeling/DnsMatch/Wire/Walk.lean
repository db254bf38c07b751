import DnsMatch.Log
import DnsMatch.Wire.Cursor

/-! # Finding the TTLs of a message

The walk moves a cursor over the header, the questions and the resource
records, and collects where each record's TTL stands. Of all that it passes it
looks only at lengths: a record of any type is passed alike, also an OPT
record, whose TTL field holds its extended RCODE and flags. What follows the
last record is left alone.

The walk tells the log what it passes, and `walk` is its result alone. -/

namespace DnsMatch.Wire

def headerLength : Nat := 12

/-- The length of TYPE and CLASS, and of QTYPE and QCLASS. -/
def typeAndClassLength : Nat := 4

def ttlLength : Nat := 4

def optType : UInt16 := 41

/-! ## The header

The header is twelve octets: an identifier and flags, which no function here
looks at, and then how many entries each of the four sections has. -/

structure Counts where
  qdcount : UInt16
  ancount : UInt16
  nscount : UInt16
  arcount : UInt16
deriving DecidableEq, Repr

namespace Counts

/-- The counts in the header of a message, which must be present in full. -/
def read (octets : Octets) : Except Truncation Counts := do
  let _ ← skip octets 0 headerLength .header
  let (qdcount, _) ← readU16 octets 4 .header
  let (ancount, _) ← readU16 octets 6 .header
  let (nscount, _) ← readU16 octets 8 .header
  let (arcount, _) ← readU16 octets 10 .header
  return { qdcount, ancount, nscount, arcount }

/-- How many resource records follow the questions. -/
def records (counts : Counts) : Nat :=
  counts.ancount.toNat + counts.nscount.toNat + counts.arcount.toNat

def text (counts : Counts) : String :=
  "Counts \x7b qdcount: " ++ toString counts.qdcount.toNat ++
    ", ancount: " ++ toString counts.ancount.toNat ++
    ", nscount: " ++ toString counts.nscount.toNat ++
    ", arcount: " ++ toString counts.arcount.toNat ++ " \x7d"

end Counts

/-! ## Names

A name is a run of labels, each a length octet from 1 to 63 and that many
octets, and an end: either a zero octet, or a compression pointer, which is an
octet above 63 and one octet more. A pointer is never followed, so it does not
matter what it points at. -/

/-- The greatest length octet of a label; any octet above it begins a pointer. -/
def maxLabelLength : UInt8 := 63

/-- Skipping a label leaves less of the message to read. -/
theorem label_advances {octets : Octets} {cursor next labelEnd : Nat} {labelLength : UInt8}
    (length : readU8 octets cursor .labelLength = .ok (labelLength, next))
    (label : skip octets next labelLength.toNat .label = .ok labelEnd) :
    octets.size - labelEnd < octets.size - cursor := by
  have ⟨_, _, _⟩ := readU8_eq_ok length
  have ⟨_, _⟩ := skip_eq_ok label
  omega

/-- The cursor just past the name at `cursor`. -/
def skipName (octets : Octets) (cursor : Nat) : Except Truncation Nat :=
  match length : readU8 octets cursor .labelLength with
  | .error truncation => .error truncation
  | .ok (labelLength, next) =>
    if labelLength = 0 then .ok next
    else if labelLength > maxLabelLength then skip octets next 1 .pointer
    else
      match label : skip octets next labelLength.toNat .label with
      | .error truncation => .error truncation
      | .ok labelEnd =>
        have := label_advances length label
        skipName octets labelEnd
termination_by octets.size - cursor

/-! ## What the walk tells the log -/

/-- The counts, once they are known. -/
def countsEntry (counts : Counts) : Log.Entry :=
  ⟨.trace, "Walking a message with " ++ counts.text ++ "."⟩

/-- An OPT record, which has no TTL in that place. -/
def optEntry (start ttlOffset : Nat) : Log.Entry :=
  ⟨.debug, "The OPT record at offset " ++ toString start ++
    " has its extended RCODE and flags at " ++ toString ttlOffset ++
    "; they will be ignored like a TTL."⟩

/-- The TTL of a record. -/
def ttlEntry (start : Nat) (ttl : UInt32) : Log.Entry :=
  ⟨.trace, "The record at offset " ++ toString start ++ " has a TTL of " ++
    toString ttl.toNat ++ "."⟩

/-- Octets left over at the end. -/
def trailingEntry (count : Nat) : Log.Entry :=
  ⟨.trace, toString count ++ " octets follow the last record."⟩

/-! ## Questions and records -/

/-- The cursor just past the question at `cursor`. -/
def skipQuestion (octets : Octets) (cursor : Nat) : Except Truncation Nat := do
  let nameEnd ← skipName octets cursor
  skip octets nameEnd typeAndClassLength .questionFields

/-- The cursor just past so many questions. -/
def skipQuestions (octets : Octets) : Nat → Nat → Except Truncation Nat
  | 0, cursor => .ok cursor
  | count + 1, cursor =>
    match skipQuestion octets cursor with
    | .error truncation => .error truncation
    | .ok next => skipQuestions octets count next

/-- Where the TTL of a record stands and where the record ends. -/
structure RecordExtent where
  ttlOffset : Nat
  stop : Nat
deriving DecidableEq, Repr

/-- Passes a record from its RDLENGTH on. -/
def skipRecordData (octets : Octets) (ttlOffset ttlEnd : Nat) :
    Except Truncation RecordExtent := do
  let (rdlength, rdataStart) ← readU16 octets ttlEnd .rdlength
  let stop ← skip octets rdataStart rdlength.toNat .rdata
  return { ttlOffset, stop }

/-- Passes a record from its TTL on. -/
def skipRecordTtl (octets : Octets) (start ttlOffset : Nat) : Logged Truncation RecordExtent := do
  let (ttl, ttlEnd) ← readU32 octets ttlOffset .ttl
  Logged.write (ttlEntry start ttl)
  skipRecordData octets ttlOffset ttlEnd

/-- Passes a record behind its owner. -/
def skipRecordFields (octets : Octets) (start ownerEnd : Nat) :
    Logged Truncation RecordExtent := do
  let (type, _) ← readU16 octets ownerEnd .recordFields
  let ttlOffset ← skip octets ownerEnd typeAndClassLength .recordFields
  if type = optType then
    Logged.write (optEntry start ttlOffset)
  skipRecordTtl octets start ttlOffset

/-- The extent of the record at `start`. -/
def skipRecord (octets : Octets) (start : Nat) : Logged Truncation RecordExtent := do
  let ownerEnd ← skipName octets start
  skipRecordFields octets start ownerEnd

/-- Passes so many records, with the TTL offsets and the entries of the records before them. The
result is all TTL offsets and the end of the last record. -/
def skipRecords (octets : Octets) :
    Nat → Nat → Array Nat → Array Log.Entry → Logged Truncation (Array Nat × Nat)
  | 0, cursor, ttlOffsets, entries => ⟨entries.toList, .ok (ttlOffsets, cursor)⟩
  | count + 1, cursor, ttlOffsets, entries =>
    let record := skipRecord octets cursor
    match record.result with
    | .error truncation => ⟨(entries ++ record.log).toList, .error truncation⟩
    | .ok extent =>
      skipRecords octets count extent.stop (ttlOffsets.push extent.ttlOffset)
        (entries ++ record.log)

/-! ## The walk -/

/-- Walks a message and gives the offset of each record's TTL, in the order of the records. -/
def walkLogged (octets : Octets) : Logged Truncation (List Nat) := do
  let counts ← Counts.read octets
  Logged.write (countsEntry counts)
  let recordsStart ← skipQuestions octets counts.qdcount.toNat headerLength
  let (ttlOffsets, stop) ← skipRecords octets counts.records recordsStart #[] #[]
  if stop < octets.size then
    Logged.write (trailingEntry (octets.size - stop))
  return ttlOffsets.toList

/-- The offset of each record's TTL, in the order of the records. -/
def walk (octets : Octets) : Except Truncation (List Nat) :=
  (walkLogged octets).result

end DnsMatch.Wire
