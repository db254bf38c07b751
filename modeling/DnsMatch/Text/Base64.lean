import DnsMatch.Text.Hex

/-! # Base64

Three octets are written as four digits of six bits each. A last group of one
or two octets is filled up with zero bits and closed with two or one padding
characters. Text is read strictly: the padding must be there, the filled-up
bits must be zero, and so each octet string has exactly one written form, white
space apart. -/

namespace DnsMatch.Text.Base64

def pad : UInt8 := 0x3d

/-- The code of the digit for a value below 64. -/
def digit (value : Nat) : UInt8 :=
  if value < 26 then UInt8.ofNat (0x41 + value)
  else if value < 52 then UInt8.ofNat (0x61 + (value - 26))
  else if value < 62 then UInt8.ofNat (0x30 + (value - 52))
  else if value = 62 then 0x2b
  else 0x2f

/-- The value of the digit with a given code. -/
def value? (code : UInt8) : Option Nat :=
  if 0x41 ≤ code ∧ code ≤ 0x5a then some (code.toNat - 0x41)
  else if 0x61 ≤ code ∧ code ≤ 0x7a then some (code.toNat - 0x61 + 26)
  else if 0x30 ≤ code ∧ code ≤ 0x39 then some (code.toNat - 0x30 + 52)
  else if code = 0x2b then some 62
  else if code = 0x2f then some 63
  else none

/-- The written form of octets. -/
def encode : List UInt8 → List UInt8
  | [] => []
  | [a] => [digit (a.toNat / 4), digit (a.toNat % 4 * 16), pad, pad]
  | [a, b] =>
    [digit (a.toNat / 4), digit (a.toNat % 4 * 16 + b.toNat / 16), digit (b.toNat % 16 * 4), pad]
  | a :: b :: c :: rest =>
    digit (a.toNat / 4) :: digit (a.toNat % 4 * 16 + b.toNat / 16) ::
      digit (b.toNat % 16 * 4 + c.toNat / 64) :: digit (c.toNat % 64) :: encode rest

/-- The octets of a last group of four characters, which may end in padding. -/
def decodeLast? (a b c d : UInt8) : Option (List UInt8) := do
  let w ← value? a
  let x ← value? b
  let first := UInt8.ofNat (w * 4 + x / 16)
  if c = pad then
    if d = pad ∧ x % 16 = 0 then some [first] else none
  else
    let y ← value? c
    let second := UInt8.ofNat (x % 16 * 16 + y / 4)
    if d = pad then
      if y % 4 = 0 then some [first, second] else none
    else
      let z ← value? d
      some [first, second, UInt8.ofNat (y % 4 * 64 + z)]

/-- The three octets of a group of four digits. -/
def decodeGroup? (a b c d : UInt8) : Option (List UInt8) := do
  let w ← value? a
  let x ← value? b
  let y ← value? c
  let z ← value? d
  some [UInt8.ofNat (w * 4 + x / 16), UInt8.ofNat (x % 16 * 16 + y / 4),
    UInt8.ofNat (y % 4 * 64 + z)]

/-- The octets that groups of four characters spell, behind the octets already read. -/
def decodeGroups (octets : Octets) : List UInt8 → Option Octets
  | [] => some octets
  | [a, b, c, d] =>
    match decodeLast? a b c d with
    | some group => some (octets ++ group)
    | none => none
  | a :: b :: c :: d :: rest =>
    match decodeGroup? a b c d with
    | some group => decodeGroups (octets ++ group) rest
    | none => none
  | _ => none

/-- The octets that a text spells, once white space is left out. -/
def decode? (text : Octets) : Option Octets :=
  decodeGroups #[] (text.toList.filter (!isBlankOctet ·))

end DnsMatch.Text.Base64
