import DnsMatch.Wire.Walk

/-! # The structure of a message

A message as a value: names of labels, questions, resource records, and octets
behind the last record. Nothing is asked of a value but that its lengths fit
into the fields that hold them, so a message of this kind need not make sense.
`Message.encode` writes it down, and `Message.ttlOffsets` says where its TTLs
stand in what was written. -/

namespace DnsMatch.Wire

/-! ## Names -/

structure Label where
  text : List UInt8
  text_pos : 0 < text.length
  text_le : text.length ≤ maxLabelLength.toNat
deriving DecidableEq, Repr

/-- The octets of a label: its length and its text. -/
def Label.encode (label : Label) : List UInt8 :=
  UInt8.ofNat label.text.length :: label.text

inductive NameEnd where
  | root
  | pointer (first second : UInt8) (first_gt : first > maxLabelLength)
deriving DecidableEq, Repr

def NameEnd.encode : NameEnd → List UInt8
  | .root => [0]
  | .pointer first second _ => [first, second]

structure Name where
  labels : List Label
  ending : NameEnd
deriving DecidableEq, Repr

def Name.encode (name : Name) : List UInt8 :=
  name.labels.flatMap Label.encode ++ name.ending.encode

/-! ## Questions and records -/

structure Question where
  name : Name
  qtype : UInt16
  qclass : UInt16
deriving DecidableEq, Repr

def Question.encode (question : Question) : List UInt8 :=
  question.name.encode ++ Octets.ofU16 question.qtype ++ Octets.ofU16 question.qclass

structure Record where
  owner : Name
  rrtype : UInt16
  rrclass : UInt16
  ttl : UInt32
  rdata : List UInt8
  rdata_lt : rdata.length < 65536
deriving DecidableEq, Repr

namespace Record

/-- The octets of a record before its TTL. -/
def encodeHead (record : Record) : List UInt8 :=
  record.owner.encode ++ Octets.ofU16 record.rrtype ++ Octets.ofU16 record.rrclass

/-- The octets of a record behind its TTL. -/
def encodeTail (record : Record) : List UInt8 :=
  Octets.ofU16 (UInt16.ofNat record.rdata.length) ++ record.rdata

def encode (record : Record) : List UInt8 :=
  record.encodeHead ++ Octets.ofU32 record.ttl ++ record.encodeTail

/-- Where the TTLs of consecutive records stand, the first of which starts at `start`. -/
def ttlOffsetsFrom (start : Nat) : List Record → List Nat
  | [] => []
  | record :: records =>
    (start + record.encodeHead.length) :: ttlOffsetsFrom (start + record.encode.length) records

end Record

/-! ## Messages -/

structure Message where
  id : UInt16
  flags : UInt16
  questions : List Question
  answers : List Record
  authorities : List Record
  additionals : List Record
  trailing : List UInt8
  questions_lt : questions.length < 65536
  answers_lt : answers.length < 65536
  authorities_lt : authorities.length < 65536
  additionals_lt : additionals.length < 65536
deriving DecidableEq, Repr

namespace Message

/-- The records of all sections, in their order. -/
def records (message : Message) : List Record :=
  message.answers ++ message.authorities ++ message.additionals

def counts (message : Message) : Counts where
  qdcount := UInt16.ofNat message.questions.length
  ancount := UInt16.ofNat message.answers.length
  nscount := UInt16.ofNat message.authorities.length
  arcount := UInt16.ofNat message.additionals.length

def encodeHeader (message : Message) : List UInt8 :=
  Octets.ofU16 message.id ++ Octets.ofU16 message.flags ++
    Octets.ofU16 message.counts.qdcount ++ Octets.ofU16 message.counts.ancount ++
    Octets.ofU16 message.counts.nscount ++ Octets.ofU16 message.counts.arcount

def encodeQuestions (message : Message) : List UInt8 :=
  message.questions.flatMap Question.encode

def encodeRecords (message : Message) : List UInt8 :=
  message.records.flatMap Record.encode

def encode (message : Message) : Octets :=
  (message.encodeHeader ++ message.encodeQuestions ++ message.encodeRecords ++
    message.trailing).toArray

def recordsStart (message : Message) : Nat :=
  message.encodeHeader.length + message.encodeQuestions.length

def recordsEnd (message : Message) : Nat :=
  message.recordsStart + message.encodeRecords.length

/-- Where the TTL of each record stands. -/
def ttlOffsets (message : Message) : List Nat :=
  Record.ttlOffsetsFrom message.recordsStart message.records

end Message

end DnsMatch.Wire
