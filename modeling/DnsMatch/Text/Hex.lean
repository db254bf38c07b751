import DnsMatch.Octets

/-! # ASCII text and hexadecimal

White space is the five characters space, tab, line feed, form feed and
carriage return; the vertical tab is none, and neither is any character outside
ASCII. Case is that of the ASCII letters alone.

In hexadecimal, octets are shown as pairs of lower-case digits with a space
between pairs. Text is read back with digits of either case, and white space
anywhere in it has no meaning. -/

namespace DnsMatch.Text

/-! ## White space and case -/

/-- Whether a code is that of white space. -/
def isBlankCode (code : Nat) : Bool :=
  code == 0x20 || code == 0x09 || code == 0x0a || code == 0x0c || code == 0x0d

def isBlank (c : Char) : Bool :=
  isBlankCode c.toNat

def isBlankOctet (octet : UInt8) : Bool :=
  isBlankCode octet.toNat

/-- Whether two texts are the same but for the case of ASCII letters. -/
def sameButCase (left right : String) : Bool :=
  left.toList.map Char.toLower == right.toList.map Char.toLower

namespace Hex

/-! ## Showing -/

/-- The digit for a value below sixteen. -/
def digit (value : Nat) : Char :=
  if value < 10 then Char.ofNat ('0'.toNat + value) else Char.ofNat ('a'.toNat + (value - 10))

/-- The two digits of an octet, the high one first. -/
def digits (octet : UInt8) : List Char :=
  [digit (octet.toNat / 16), digit (octet.toNat % 16)]

/-- The digits of all octets, with nothing between them. -/
def plain (octets : Octets) : String :=
  String.ofList (octets.toList.flatMap digits)

/-- The digits of all octets, with a space between octets. -/
def spaced (octets : Octets) : String :=
  String.ofList ((octets.toList.map digits).intersperse [' ']).flatten

/-! ## Reading -/

/-- The value of a digit of either case. -/
def value? (c : Char) : Option Nat :=
  if '0' ≤ c ∧ c ≤ '9' then some (c.toNat - '0'.toNat)
  else if 'a' ≤ c ∧ c ≤ 'f' then some (c.toNat - 'a'.toNat + 10)
  else if 'A' ≤ c ∧ c ≤ 'F' then some (c.toNat - 'A'.toNat + 10)
  else none

/-- The octets that pairs of digits spell, behind the octets already read. -/
def decodePairs (octets : Octets) : List Char → Option Octets
  | [] => some octets
  | [_] => none
  | high :: low :: rest =>
    match value? high, value? low with
    | some h, some l => decodePairs (octets.push (UInt8.ofNat (h * 16 + l))) rest
    | _, _ => none

/-- The octets that a text spells: pairs of digits once white space is left out, and nothing
else. -/
def decode? (text : String) : Option Octets :=
  decodePairs #[] (text.toList.filter (!isBlank ·))

end Hex

end DnsMatch.Text
