import DnsMatch.Report

/-! # The program

A run of the program is a function of the words of its command line and of its
host: it prints a text, logs entries and ends with a status. -/

namespace DnsMatch.Program

/-- The name and the version of the program. -/
def version : String := "dnscmp 0.1.0\n"

/-- How a run of the program ends. -/
structure Ending where
  status : Nat
  output : String
  log : List Log.Entry
deriving DecidableEq, Repr

/-- What is printed where the words of a command line give no command. -/
def refusalOutput (host : Host) (words : List String) : CommandLine.Refusal → String
  | .help => host.help words
  | .version => version
  | _ => ""

def run (host : Host) (words : List String) : Ending :=
  match CommandLine.read words with
  | .error refusal => ⟨refusal.status, refusalOutput host words refusal, []⟩
  | .ok command =>
    let report := command.run host
    ⟨report.status, String.join (report.lines.map (· ++ "\n")), report.log⟩

/-- The paths of the files that a run looks at, as far as they are known from the files that can
be read so far: the pairs of a configuration only once that can be read. -/
def paths (host : Host) (words : List String) : List Files.Path :=
  match CommandLine.read words with
  | .error _ => []
  | .ok (.compare expected actual _ _) => [expected, actual]
  | .ok (.batch path) =>
    path ::
      match (Config.load host path).result with
      | .error _ => []
      | .ok config => config.pairs.flatMap fun pair => [pair.expected, pair.actual]

end DnsMatch.Program
