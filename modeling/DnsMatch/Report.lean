import DnsMatch.CommandLine
import DnsMatch.Config.Load

/-! # Running comparisons

A run compares the pairs of a configuration one after another, prints a line
for each and counts those that are mismatched and those that failed. A pair
fails if one of its files gives no message or if its expected message cannot be
walked in the mode that asks for it. The counts decide the exit status. -/

namespace DnsMatch

/-! ## One pair -/

/-- What comparing the files of a pair comes to, if it does not fail. -/
inductive Outcome where
  | equivalent
  | mismatched
deriving DecidableEq, Repr

namespace Pair

/-- What the log is told before a pair is compared. -/
def comparingEntry (config : Config) (pair : Pair) : Log.Entry :=
  ⟨.debug, "Comparing " ++ pair.name ++ " in " ++ (pair.mode config).name ++ " mode."⟩

def mismatchEntry (pair : Pair) (mismatch : Mismatch) : Log.Entry :=
  ⟨.warn, pair.actual.text ++ " does not match " ++ pair.expected.text ++ ":\n" ++
    mismatch.text⟩

def failureEntry (pair : Pair) (failure : Failure) : Log.Entry :=
  ⟨.error, failure.report ("Failed to compare " ++ pair.name ++ ":")⟩

/-- The failure of a pair whose expected message is cut short. -/
def malformed (pair : Pair) (truncation : Wire.Truncation) : Failure :=
  [.malformed pair.expected, .truncated truncation]

/-- Loads the two messages of a pair and compares them. -/
def compare (host : Host) (config : Config) (pair : Pair) : Logged Failure Outcome := do
  Logged.write (pair.comparingEntry config)
  let expected ← loadMessage host pair.expected (pair.format config)
  let actual ← loadMessage host pair.actual (pair.format config)
  match ← ((pair.mode config).validate expected actual).mapError pair.malformed with
  | .equivalent => return .equivalent
  | .different mismatch =>
    Logged.write (pair.mismatchEntry mismatch)
    return .mismatched

end Pair

/-! ## All pairs -/

/-- How far a run has come with its pairs: what it printed, line by line, what it logged, and how
many pairs it found mismatched and failed. -/
structure Progress where
  lines : Array String
  log : Array Log.Entry
  mismatches : Nat
  failures : Nat
deriving DecidableEq, Repr

namespace Progress

/-- The progress before the first pair. -/
def initial : Progress := ⟨#[], #[], 0, 0⟩

/-- The progress after one more pair. A pair that fails does not keep the run from going on. -/
def step (host : Host) (config : Config) (progress : Progress) (pair : Pair) : Progress :=
  let compared := pair.compare host config
  let log := progress.log ++ compared.log
  match compared.result with
  | .ok .equivalent =>
    { progress with lines := progress.lines.push ("EQUIVALENT " ++ pair.name), log }
  | .ok .mismatched =>
    { progress with
      lines := progress.lines.push ("MISMATCH " ++ pair.name)
      log
      mismatches := progress.mismatches + 1 }
  | .error failure =>
    { progress with
      lines := progress.lines.push ("ERROR " ++ pair.name)
      log := log.push (pair.failureEntry failure)
      failures := progress.failures + 1 }

/-- The exit status: a failure outweighs mismatches. -/
def status (progress : Progress) : Nat :=
  if progress.failures > 0 then 2
  else if progress.mismatches > 0 then 1
  else 0

end Progress

/-- What a run prints, line by line, what it logs, and its exit status. -/
structure Report where
  lines : List String
  log : List Log.Entry
  status : Nat
deriving DecidableEq, Repr

namespace Report

def totalsEntry (pairs equivalent mismatched failed : Nat) : Log.Entry :=
  ⟨.info, "Compared " ++ toString pairs ++ " pairs: " ++ toString equivalent ++
    " equivalent, " ++ toString mismatched ++ " mismatched, " ++ toString failed ++ " failed."⟩

/-- The report of a run that came to the end of so many pairs. The equivalent ones are what the
others leave. -/
def ofProgress (pairs : Nat) (progress : Progress) : Report :=
  { lines := progress.lines.toList
    log := (progress.log.push (totalsEntry pairs
      (pairs - progress.mismatches - progress.failures) progress.mismatches
      progress.failures)).toList
    status := progress.status }

/-- The report of a run that had no configuration. -/
def ofFailure (failure : Failure) : Report :=
  { lines := [], log := [⟨.error, failure.report "Failed to run:"⟩], status := 2 }

end Report

def Config.compareAll (host : Host) (config : Config) : Report :=
  Report.ofProgress config.pairs.length
    (config.pairs.foldl (Progress.step host config) Progress.initial)

namespace CommandLine

/-- What the log is told before a configuration is loaded. -/
def loadingEntry (path : Files.Path) : Log.Entry :=
  ⟨.info, "Loading the configuration from " ++ path.text ++ "."⟩

/-- The configuration that a command works on. -/
def Command.config (host : Host) : Command → Logged Failure Config
  | .compare expected actual mode format => do
    let config := Config.single mode format expected actual
    Logged.write config.summaryEntry
    return config
  | .batch path => do
    Logged.write (loadingEntry path)
    (Config.load host path).mapError (.noConfiguration :: ·)

def Command.run (host : Host) (command : Command) : Report :=
  let loaded := command.config host
  let report :=
    match loaded.result with
    | .ok config => config.compareAll host
    | .error failure => Report.ofFailure failure
  { report with log := loaded.log ++ report.log }

end CommandLine

end DnsMatch
