/-! # Log entries

What the library has to say beside its results is a list of entries, each
with a level. A `Logged` computation carries the entries it wrote and then its
value or its failure; the entries written before a failure are kept. -/

namespace DnsMatch

namespace Log

inductive Level where
  | error
  | warn
  | info
  | debug
  | trace
deriving DecidableEq, Repr

/-- The place of a level, the most severe first. -/
def Level.rank : Level → Nat
  | .error => 1
  | .warn => 2
  | .info => 3
  | .debug => 4
  | .trace => 5

def Level.name : Level → String
  | .error => "error"
  | .warn => "warn"
  | .info => "info"
  | .debug => "debug"
  | .trace => "trace"

/-- All levels, the most severe first. -/
def Level.all : List Level := [.error, .warn, .info, .debug, .trace]

structure Entry where
  level : Level
  message : String
deriving DecidableEq, Repr

/-- How much of a log is shown: nothing, or all entries down to a level. -/
inductive Threshold where
  | off
  | upTo (level : Level)
deriving DecidableEq, Repr

/-- The threshold of a given name. -/
def Threshold.ofName? (name : String) : Option Threshold :=
  if name = "off" then some .off
  else (Level.all.find? (·.name = name)).map .upTo

def Threshold.shows : Threshold → Level → Bool
  | .off, _ => false
  | .upTo least, level => level.rank ≤ least.rank

/-- The entries that a threshold shows, in their order. -/
def Threshold.filter (threshold : Threshold) (entries : List Entry) : List Entry :=
  entries.filter (threshold.shows ·.level)

end Log

/-- A computation that writes log entries and then succeeds or fails. -/
structure Logged (ε α : Type) where
  log : List Log.Entry
  result : Except ε α

namespace Logged

/-- A result without any entry. -/
def ofExcept {ε α : Type} (result : Except ε α) : Logged ε α := ⟨[], result⟩

def write {ε : Type} (entry : Log.Entry) : Logged ε Unit := ⟨[entry], .ok ()⟩

/-- One computation after another; the second is not begun if the first fails. -/
def andThen {ε α β : Type} (first : Logged ε α) (second : α → Logged ε β) : Logged ε β :=
  match first.result with
  | .error failure => ⟨first.log, .error failure⟩
  | .ok value => ⟨first.log ++ (second value).log, (second value).result⟩

instance {ε : Type} : Monad (Logged ε) where
  pure value := ofExcept (.ok value)
  bind := andThen

/-- A failure without any entry. -/
def fail {ε α : Type} (failure : ε) : Logged ε α := ofExcept (.error failure)

instance {ε : Type} : MonadLift (Except ε) (Logged ε) where
  monadLift := ofExcept

/-- The same computation with its failure put in other words. -/
def mapError {ε δ α : Type} (change : ε → δ) (computation : Logged ε α) : Logged δ α :=
  ⟨computation.log, computation.result.mapError change⟩

/-! ## The result and the log, step by step -/

variable {ε δ α β : Type}

@[simp] theorem result_ofExcept (result : Except ε α) : (ofExcept result).result = result := rfl

@[simp] theorem log_ofExcept (result : Except ε α) : (ofExcept result).log = [] := rfl

@[simp] theorem result_pure (value : α) : (pure value : Logged ε α).result = .ok value := rfl

@[simp] theorem log_pure (value : α) : (pure value : Logged ε α).log = [] := rfl

@[simp] theorem result_lift (result : Except ε α) :
    (liftM result : Logged ε α).result = result := rfl

@[simp] theorem log_lift (result : Except ε α) : (liftM result : Logged ε α).log = [] := rfl

@[simp] theorem result_write (entry : Log.Entry) :
    (write entry : Logged ε Unit).result = .ok () := rfl

@[simp] theorem log_write (entry : Log.Entry) :
    (write entry : Logged ε Unit).log = [entry] := rfl

@[simp] theorem result_mapError (change : ε → δ) (computation : Logged ε α) :
    (computation.mapError change).result = computation.result.mapError change := rfl

/-- The log has no say in the result. -/
@[simp] theorem result_bind (first : Logged ε α) (second : α → Logged ε β) :
    (first >>= second).result = first.result >>= fun value => (second value).result := by
  cases h : first.result <;> simp [bind, andThen, h, Except.bind]

/-- The second computation writes behind the first, or nothing if it is not begun. -/
theorem log_bind (first : Logged ε α) (second : α → Logged ε β) :
    (first >>= second).log = first.log ++
      match first.result with
      | .error _ => []
      | .ok value => (second value).log := by
  cases h : first.result <;> simp [bind, andThen, h]

end Logged

end DnsMatch
