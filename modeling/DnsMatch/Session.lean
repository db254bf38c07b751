import DnsMatch.Mode

/-! # A session of edits

A session holds two messages and a mode. Its messages are edited step by step,
and after each step they are compared again. -/

namespace DnsMatch

/-- Two messages and how they are compared. -/
structure Session where
  mode : Mode
  expected : Octets
  actual : Octets
deriving DecidableEq, Repr

namespace Session

inductive Side where
  | expected
  | actual
deriving DecidableEq, Repr

inductive Edit where
  | replace (octets : Octets)
  | overwrite (offset : Nat) (octets : Octets)
  | insert (offset : Nat) (octets : Octets)
  | remove (offset length : Nat)
  | truncate (length : Nat)
deriving DecidableEq, Repr

def Edit.apply (message : Octets) : Edit → Octets
  | replace octets => octets
  | overwrite offset octets =>
    message.clamp 0 offset ++ octets ++ message.clamp (offset + octets.size) message.size
  | insert offset octets => message.clamp 0 offset ++ octets ++ message.clamp offset message.size
  | remove offset length =>
    message.clamp 0 offset ++ message.clamp (offset + length) message.size
  | truncate length => message.clamp 0 length

inductive Step where
  | edit (side : Side) (edit : Edit)
  | swap
  | setMode (text : String)
  | check
deriving DecidableEq, Repr

/-- The session after a step, unless the step asks for a mode that there is none of. -/
def after? (session : Session) : Step → Option Session
  | .edit .expected edit => some { session with expected := edit.apply session.expected }
  | .edit .actual edit => some { session with actual := edit.apply session.actual }
  | .swap => some { session with expected := session.actual, actual := session.expected }
  | .setMode text => (Mode.ofText? text).map fun mode => { session with mode }
  | .check => some session

/-- Compares the two messages as they stand. -/
def validate (session : Session) : Logged Wire.Truncation Verdict :=
  session.mode.validate session.expected session.actual

/-- What each step of a list gives, nothing for an unknown mode, and how the session ends. -/
def run (session : Session) : List Step → List (Option (Logged Wire.Truncation Verdict)) × Session
  | [] => ([], session)
  | step :: steps =>
    match session.after? step with
    | none =>
      let (answers, ending) := session.run steps
      (none :: answers, ending)
    | some changed =>
      let (answers, ending) := changed.run steps
      (some changed.validate :: answers, ending)

end Session

end DnsMatch
