import DnsMatch.Failure
import DnsMatch.Text.Base64
import DnsMatch.Text.Hex

/-! # Files that hold a message

A file holds the octets of a message as they are, or written in hexadecimal or
in base64. -/

namespace DnsMatch

inductive Format where
  | raw
  | hex
  | base64
deriving DecidableEq, Repr

namespace Format

def default : Format := .raw

def name : Format → String
  | .raw => "raw"
  | .hex => "hex"
  | .base64 => "base64"

def ofText? (text : String) : Option Format :=
  [raw, hex, base64].find? (text = ·.name)

/-- What is said of a text that is no format's name. -/
def unknownText : String := "unknown format (expected raw, hex, or base64)"

/-- The message that the contents of a file hold. -/
def decode (host : Host) (contents : Octets) : Format → Except Failure Octets
  | .raw => .ok contents
  | .hex =>
    match String.fromUTF8? ⟨contents⟩ with
    | none => .error [.notUtf8, .foreign (host.notUtf8 contents)]
    | some text =>
      match Text.Hex.decode? text with
      | none => .error [.notHex]
      | some message => .ok message
  | .base64 =>
    match Text.Base64.decode? contents with
    | none => .error [.notBase64, .foreign (host.notBase64 contents)]
    | some message => .ok message

end Format

/-- The message in the file at a path. -/
def loadMessage (host : Host) (path : Files.Path) (format : Format) : Except Failure Octets :=
  match host.read path with
  | .error reason => .error [.unread path, .foreign reason]
  | .ok contents => (format.decode host contents).mapError (.undecoded path :: ·)

end DnsMatch
