import DnsMatch.Log

/-! # What logged computations tell

Two properties of logs that hold of a chain of computations if they hold of each
link. A computation follows another if the two are the same up to where it
fails, so that what it has told by then is the beginning of what the other tells
(`Logged.Follows`). A threshold that shows nothing of any link shows nothing of
the chain (`Logged.IsSilent`). -/

namespace DnsMatch

namespace Log.Threshold

variable {threshold : Threshold} {entry : Entry}

theorem filter_append (threshold : Threshold) (entries entries' : List Entry) :
    threshold.filter (entries ++ entries') =
      threshold.filter entries ++ threshold.filter entries' :=
  List.filter_append entries entries'

/-- The last threshold shows everything. -/
theorem filter_trace (entries : List Entry) : (upTo .trace).filter entries = entries := by
  have hshows : ∀ level, (upTo .trace).shows level = true := by
    intro level
    cases level <;> decide
  simp [filter, hshows]

end Log.Threshold

namespace Logged

open Log (Threshold)

variable {ε δ α β : Type} {first second : Logged ε α} {next next' : α → Logged ε β}
  {threshold : Threshold}

/-! ## One link after the other -/

theorem bind_of_ok {value : α} (h : first.result = .ok value) :
    (first >>= next) = ⟨first.log ++ (next value).log, (next value).result⟩ := by
  simp only [Bind.bind, andThen, h]

theorem bind_of_error {failure : ε} (h : first.result = .error failure) :
    (first >>= next) = ⟨first.log, .error failure⟩ := by
  simp only [Bind.bind, andThen, h]

theorem log_bind_of_log_eq_nil (h : ∀ value, (next value).log = []) :
    (first >>= next).log = first.log := by
  cases hfirst : first.result with
  | error failure => rw [bind_of_error hfirst]
  | ok value => rw [bind_of_ok hfirst, h, List.append_nil]

/-! ## Computations of which one may fail earlier -/

/-- Whether a computation is the same as another if it succeeds, and if not has told the beginning
of what the other tells. -/
structure Follows (first second : Logged ε α) : Prop where
  same : ∀ value, first.result = .ok value → second = first
  isPrefix_log : first.log <+: second.log

theorem Follows.refl (computation : Logged ε α) : Follows computation computation :=
  ⟨fun _ _ => rfl, List.prefix_refl _⟩

theorem Follows.lift {result result' : Except ε α}
    (h : ∀ value, result = .ok value → result' = .ok value) :
    Follows (liftM result : Logged ε α) (liftM result') := by
  refine ⟨fun value hvalue => ?_, List.prefix_refl _⟩
  rw [result_lift] at hvalue
  rw [hvalue, h value hvalue]

theorem Follows.bind (h : Follows first second)
    (hnext : ∀ value, first.result = .ok value → Follows (next value) (next' value)) :
    Follows (first >>= next) (second >>= next') := by
  cases hfirst : first.result with
  | error failure =>
    rw [bind_of_error hfirst]
    refine ⟨nofun, h.isPrefix_log.trans ?_⟩
    rw [log_bind]
    exact List.prefix_append _ _
  | ok value =>
    obtain rfl := h.same value hfirst
    have hvalue := hnext value hfirst
    rw [bind_of_ok hfirst, bind_of_ok hfirst]
    refine ⟨fun value' hvalue' => ?_, (List.prefix_append_right_inj _).2 hvalue.isPrefix_log⟩
    rw [hvalue.same value' hvalue']

/-! ## Computations of which nothing is shown -/

def IsSilent (threshold : Threshold) (computation : Logged ε α) : Prop :=
  threshold.filter computation.log = []

theorem IsSilent.bind (h : IsSilent threshold first)
    (hnext : ∀ value, IsSilent threshold (next value)) :
    IsSilent threshold (first >>= next) := by
  unfold IsSilent
  rw [log_bind, Threshold.filter_append, h]
  cases first.result with
  | error failure => rfl
  | ok value => exact hnext value

end Logged

end DnsMatch
