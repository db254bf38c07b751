import DnsMatch.Log
import DnsMatch.MessageFile
import DnsMatch.Mode

/-! # Configurations

A configuration lists pairs of message files to compare. A pair may have a
name, a mode and a format of its own; where it has none, it goes by its actual
message's path and by the mode and the format of the configuration. -/

namespace DnsMatch

structure Pair where
  name? : Option String
  expected : Files.Path
  actual : Files.Path
  mode? : Option Mode
  format? : Option Format
deriving DecidableEq, Repr

/-- Pairs of files, and the mode and the format for pairs that have none of their own. -/
structure Config where
  mode : Mode
  format : Format
  pairs : List Pair
deriving DecidableEq, Repr

namespace Pair

/-- The name under which a pair is reported. -/
def name (pair : Pair) : String :=
  pair.name?.getD pair.actual.text

def mode (pair : Pair) (config : Config) : Mode :=
  pair.mode?.getD config.mode

def format (pair : Pair) (config : Config) : Format :=
  pair.format?.getD config.format

/-- The pair with its paths taken in a directory. -/
def within (directory : Files.Path) (pair : Pair) : Pair :=
  { pair with
    expected := directory.within pair.expected
    actual := directory.within pair.actual }

end Pair

namespace Config

/-- The configuration of one pair without a name. -/
def single (mode : Mode) (format : Format) (expected actual : Files.Path) : Config :=
  ⟨mode, format, [⟨none, expected, actual, none, none⟩]⟩

/-- The line of the summary for one pair. -/
def pairSummary (config : Config) (pair : Pair) : String :=
  "\n  " ++ pair.name ++ " (" ++ (pair.mode config).name ++ ", " ++
    (pair.format config).name ++ ")"

def summaryEntry (config : Config) : Log.Entry :=
  ⟨.debug, "Configuration loaded:\nDefault mode:   " ++ config.mode.name ++
    "\nDefault format: " ++ config.format.name ++
    "\nPairs:          " ++ toString config.pairs.length ++
    String.join (config.pairs.map config.pairSummary)⟩

end Config

end DnsMatch
