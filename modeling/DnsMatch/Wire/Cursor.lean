import DnsMatch.Octets

/-! # Reading at a cursor

The only thing that can be wrong with a message is that it ends too early, so
a failure names the field that was cut and the offset at which it starts.

Each reader takes a message and a cursor and gives the cursor just past what it
read, which must be present in full. Where it is not, the failure carries the
field that the caller was reading and the unchanged cursor. -/

namespace DnsMatch.Wire

/-! ## Fields -/

/-- The parts into which a message is divided. -/
inductive Field where
  | header
  | labelLength
  | label
  | pointer
  | questionFields
  | recordFields
  | ttl
  | rdlength
  | rdata
deriving DecidableEq, Repr

/-- The field as it is called in a message to the user. -/
def Field.text : Field → String
  | .header => "the header"
  | .labelLength => "a label length"
  | .label => "a label"
  | .pointer => "a compression pointer"
  | .questionFields => "QTYPE and QCLASS"
  | .recordFields => "TYPE and CLASS"
  | .ttl => "a TTL"
  | .rdlength => "RDLENGTH"
  | .rdata => "RDATA"

/-- A field that the message ends before or within, and where that field starts. -/
structure Truncation where
  field : Field
  offset : Nat
deriving DecidableEq, Repr

def Truncation.message (truncation : Truncation) : String :=
  "message truncated while reading " ++ truncation.field.text ++ " at offset " ++
    toString truncation.offset

/-! ## Readers -/

/-- The cursor just past `length` octets. -/
def skip (octets : Octets) (cursor length : Nat) (field : Field) : Except Truncation Nat :=
  match Offset.add? cursor length with
  | some stop => if stop ≤ octets.size then .ok stop else .error ⟨field, cursor⟩
  | none => .error ⟨field, cursor⟩

def readU8 (octets : Octets) (cursor : Nat) (field : Field) : Except Truncation (UInt8 × Nat) :=
  (skip octets cursor 1 field).map fun stop => (octets.octetAt cursor, stop)

def readU16 (octets : Octets) (cursor : Nat) (field : Field) : Except Truncation (UInt16 × Nat) :=
  (skip octets cursor 2 field).map fun stop => (octets.u16At cursor, stop)

def readU32 (octets : Octets) (cursor : Nat) (field : Field) : Except Truncation (UInt32 × Nat) :=
  (skip octets cursor 4 field).map fun stop => (octets.u32At cursor, stop)

/-- A successful read stays in the message. -/
theorem skip_eq_ok {octets : Octets} {cursor length stop : Nat} {field : Field}
    (h : skip octets cursor length field = .ok stop) :
    stop = cursor + length ∧ cursor + length ≤ octets.size := by
  unfold skip at h
  split at h
  · next sum =>
    obtain ⟨rfl, _⟩ := Offset.add?_eq_some_iff.1 sum
    split at h <;> simp_all
  · simp at h

theorem readU8_eq_ok {octets : Octets} {cursor next : Nat} {value : UInt8} {field : Field}
    (h : readU8 octets cursor field = .ok (value, next)) :
    value = octets.octetAt cursor ∧ next = cursor + 1 ∧ cursor + 1 ≤ octets.size := by
  unfold readU8 at h
  cases hs : skip octets cursor 1 field with
  | error truncation => simp [hs, Except.map] at h
  | ok stop =>
    obtain ⟨rfl, hle⟩ := skip_eq_ok hs
    simp only [hs, Except.map, Except.ok.injEq, Prod.mk.injEq] at h
    exact ⟨h.1.symm, h.2.symm, hle⟩

end DnsMatch.Wire
