import DnsMatch.Wire.Message

/-! # The layout of a message

The fields of a message one behind the other, each with its length. Every octet
up to the end of the last record is in exactly one of them. TTLs are also told
by their offsets alone: each offset of a list opens a window of as many octets
as a TTL has. The list is a chain for a length if its windows come in ascending
order, share no octet and end within that length. -/

namespace DnsMatch.Wire

/-! ## Fields -/

/-- A field and how many octets it has. -/
abbrev Piece := Field × Nat

def Label.pieces (label : Label) : List Piece :=
  [(.labelLength, 1), (.label, label.text.length)]

/-- The fields of the end of a name; the first octet of a pointer is read as a length. -/
def NameEnd.pieces : NameEnd → List Piece
  | .root => [(.labelLength, 1)]
  | .pointer _ _ _ => [(.labelLength, 1), (.pointer, 1)]

def Name.pieces (name : Name) : List Piece :=
  name.labels.flatMap Label.pieces ++ name.ending.pieces

def Question.pieces (question : Question) : List Piece :=
  question.name.pieces ++ [(.questionFields, 4)]

def Record.pieces (record : Record) : List Piece :=
  record.owner.pieces ++
    [(.recordFields, 4), (.ttl, 4), (.rdlength, 2), (.rdata, record.rdata.length)]

/-- The fields of a message up to the end of the last record. -/
def Message.pieces (message : Message) : List Piece :=
  (.header, headerLength) :: message.questions.flatMap Question.pieces ++
    message.records.flatMap Record.pieces

namespace Layout

/-- How many octets a row of fields has. -/
def length : List Piece → Nat
  | [] => 0
  | (_, width) :: pieces => width + length pieces

/-- Whether the octet at an offset is in the field that `place` names with its start, in a row of
fields of which the first starts at `start`. -/
def Covers (offset : Nat) (place : Truncation) (start : Nat) : List Piece → Prop
  | [] => False
  | (field, width) :: pieces =>
    (place = ⟨field, start⟩ ∧ start ≤ offset ∧ offset < start + width) ∨
      Covers offset place (start + width) pieces

instance decidableCovers (offset : Nat) (place : Truncation) :
    (start : Nat) → (pieces : List Piece) → Decidable (Covers offset place start pieces)
  | _, [] => .isFalse id
  | start, (_, width) :: pieces =>
    have := decidableCovers offset place (start + width) pieces
    inferInstanceAs (Decidable (_ ∨ _))

end Layout

/-- Whether the field tells how long something else is: a label, or the data of a record. -/
def Field.isLength : Field → Bool
  | .labelLength | .rdlength => true
  | _ => false

/-- Whether the octet of a message at an offset is in the field that `place` names. -/
def Message.Covers (message : Message) (offset : Nat) (place : Truncation) : Prop :=
  Layout.Covers offset place 0 message.pieces

instance (message : Message) (offset : Nat) (place : Truncation) :
    Decidable (message.Covers offset place) :=
  Layout.decidableCovers offset place 0 message.pieces

/-! ## Windows of TTLs -/

/-- Whether an offset is in one of the windows. -/
def InWindow (ttlOffsets : List Nat) (offset : Nat) : Prop :=
  ∃ ttlOffset ∈ ttlOffsets, ttlOffset ≤ offset ∧ offset < ttlOffset + ttlLength

instance (ttlOffsets : List Nat) (offset : Nat) : Decidable (InWindow ttlOffsets offset) :=
  inferInstanceAs (Decidable (∃ ttlOffset ∈ ttlOffsets, _))

/-- Whether the windows are apart, ascending and within a length, from `start` on. -/
def IsChainFrom (length start : Nat) : List Nat → Prop
  | [] => start ≤ length
  | ttlOffset :: ttlOffsets =>
    start ≤ ttlOffset ∧ IsChainFrom length (ttlOffset + ttlLength) ttlOffsets

/-- Whether the windows are apart, ascending and within a length. -/
def IsChain (length : Nat) (ttlOffsets : List Nat) : Prop :=
  IsChainFrom length 0 ttlOffsets

/-- Whether two octet strings are the same outside the windows. -/
def AgreeOutside (ttlOffsets : List Nat) (left right : Octets) : Prop :=
  ∀ offset, ¬InWindow ttlOffsets offset → left[offset]? = right[offset]?

end DnsMatch.Wire
