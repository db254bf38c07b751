import DnsMatch.Log
import DnsMatch.Verdict
import DnsMatch.Wire.Walk

/-! # Ways of comparing

In the exact mode two messages match if they are the same octets, whatever they
are. In the other mode the TTLs of the expected message are left out of the
comparison, so that message must be one that can be walked; the actual message
never has to be. -/

namespace DnsMatch

inductive Mode where
  | exact
  | ignoreTtls
deriving DecidableEq, Repr

namespace Mode

def default : Mode := .ignoreTtls

def name : Mode → String
  | .exact => "exact"
  | .ignoreTtls => "ignore-ttls"

def ofName? (name : String) : Option Mode :=
  [exact, ignoreTtls].find? (name = ·.name)

/-- The mode with a given name, in letters of either case. -/
def ofText? (text : String) : Option Mode :=
  [exact, ignoreTtls].find? (Text.sameButCase text ·.name)

/-- What is said of a text that is no mode's name. -/
def unknownText : String := "unknown mode (expected exact or ignore-ttls)"

/-! ## Validation -/

def notIdenticalEntry (mismatch : Mismatch) : Log.Entry :=
  ⟨.debug, "Messages are not identical: " ++ mismatch.text⟩

/-- What the log is told of messages that differ in more than TTLs. -/
def outsideTtlsEntry (mismatch : Mismatch) : Log.Entry :=
  ⟨.debug, "Messages differ outside of TTLs: " ++ mismatch.text⟩

def ignoringEntry (ttlOffsets : List Nat) : Log.Entry :=
  ⟨.trace, "Ignoring " ++ toString ttlOffsets.length ++ " TTL fields at offsets [" ++
    ", ".intercalate (ttlOffsets.map toString) ++ "]."⟩

/-- Compares all octets. -/
def validateExactly (expected actual : Octets) : Logged Wire.Truncation Verdict :=
  if expected = actual then return .equivalent
  else
    let mismatch := { segment := ⟨0, expected.size⟩, expected, actual }
    do
      Logged.write (notIdenticalEntry mismatch)
      return .different mismatch

/-- Compares all octets outside the TTLs of the expected message. -/
def validateIgnoringTtls (expected actual : Octets) : Logged Wire.Truncation Verdict := do
  let ttlOffsets ← Wire.walkLogged expected
  Logged.write (ignoringEntry ttlOffsets)
  match Verdict.compare expected actual ttlOffsets with
  | .equivalent => return .equivalent
  | .different mismatch =>
    Logged.write (outsideTtlsEntry mismatch)
    return .different mismatch

def validate : Mode → Octets → Octets → Logged Wire.Truncation Verdict
  | .exact => validateExactly
  | .ignoreTtls => validateIgnoringTtls

end Mode

/-- Compares two messages everywhere but in the TTLs of the expected one. -/
def compareIgnoringTtls (expected actual : Octets) : Logged Wire.Truncation Verdict :=
  Mode.ignoreTtls.validate expected actual

end DnsMatch
