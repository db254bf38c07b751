import DnsMatch.Files.Path
import DnsMatch.Octets
import DnsMatch.Wire.Cursor

/-! # Failures

A failure is told as a chain of causes, from what was attempted down to what
went wrong. Causes that are not of this library's making, such as the operating
system's reason for not reading a file, end the chain, in the words of the
`Host` that the library runs on. -/

namespace DnsMatch

/-- What comes from outside: the contents of files, and texts of other makers. -/
structure Host where
  /-- The contents of the file at a path, or why it cannot be read. -/
  read : Files.Path → Except String Octets
  /-- Why contents are not UTF-8. -/
  notUtf8 : Octets → String
  /-- Why contents are not base64. -/
  notBase64 : Octets → String
  /-- Why contents are not a configuration in TOML. -/
  notConfiguration : Octets → String
  /-- What is printed for words of a command line that ask for help. -/
  help : List String → String

/-- A host with the given files and no others, which gives one reason for all that it refuses. -/
def Host.ofFiles (files : Files.Path → Option Octets) : Host where
  read path := (files path).elim (.error "No such file or directory (os error 2)") .ok
  notUtf8 _ := "incomplete utf-8 byte sequence from index 0"
  notBase64 _ := "Invalid padding"
  notConfiguration _ := "missing field `pairs`"
  help _ := ""

/-- One link of the chain that explains a failure. -/
inductive Cause where
  | unread (path : Files.Path)
  | undecoded (path : Files.Path)
  | notUtf8
  | notHex
  | notBase64
  | malformed (path : Files.Path)
  | truncated (truncation : Wire.Truncation)
  | noConfiguration
  | configurationHasNoParent
  | configurationUnread
  | configurationUnparsed
  | foreign (text : String)
deriving DecidableEq, Repr

def Cause.text : Cause → String
  | .unread path => "failed to read " ++ path.text
  | .undecoded path => "failed to decode " ++ path.text
  | .notUtf8 => "the file is not valid UTF-8"
  | .notHex => "the file is not valid hexadecimal"
  | .notBase64 => "the file is not valid base64"
  | .malformed path => path.text ++ " is malformed"
  | .truncated truncation => truncation.message
  | .noConfiguration => "failed to load the configuration"
  | .configurationHasNoParent => "the configuration file path has no parent"
  | .configurationUnread => "failed to read the configuration file"
  | .configurationUnparsed => "failed to parse the configuration file"
  | .foreign text => text

/-- The causes of a failure, the outermost first. -/
abbrev Failure := List Cause

namespace Failure

/-- The causes one to a line, numbered from `number` on. -/
def lines (failure : Failure) (number : Nat) : List String :=
  match failure with
  | [] => []
  | cause :: causes =>
    ("[" ++ toString number ++ "] " ++ cause.text) :: lines causes (number + 1)

/-- A heading and below it the numbered causes. -/
def report (heading : String) (failure : Failure) : String :=
  "\n".intercalate (heading :: failure.lines 1)

end Failure

end DnsMatch
