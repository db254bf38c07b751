import Mathlib.Data.List.Forall2

/-! # Chains of computations that may fail

What a chain gives, from what its links give: two computations one after the
other (`bind_eq_ok_iff`), and one computation for each item of a list
(`mapM_eq_some_iff`). -/

namespace DnsMatch

section Except

variable {ε α β γ : Type}

@[simp] theorem ok_bind (value : α) (next : α → Except ε β) :
    (.ok value >>= next) = next value := rfl

@[simp] theorem error_bind (failure : ε) (next : α → Except ε β) :
    (.error failure >>= next) = .error failure := rfl

theorem map_bind (first : Except ε α) (change : α → β) (next : β → Except ε γ) :
    (first.map change >>= next) = (first >>= fun value => next (change value)) := by
  cases first <;> rfl

/-- A chain of two computations succeeds if both do. -/
theorem bind_eq_ok_iff {first : Except ε α} {second : α → Except ε β} {value : β} :
    (first >>= second) = .ok value ↔ ∃ middle, first = .ok middle ∧ second middle = .ok value := by
  cases first with
  | error failure => simp [bind, Except.bind]
  | ok middle => simp [bind, Except.bind]

theorem map_eq_ok_iff {first : Except ε α} {change : α → β} {value : β} :
    first.map change = .ok value ↔ ∃ middle, first = .ok middle ∧ change middle = value := by
  cases first with
  | error failure => simp [Except.map]
  | ok middle => simp [Except.map]

end Except

section Option

variable {α β : Type} {f : α → Option β} {items : List α} {mapped : List β}

/-- A list is mapped if every item is. -/
theorem mapM_eq_some_iff : items.mapM f = some mapped ↔
    List.Forall₂ (fun item value => f item = some value) items mapped := by
  induction items generalizing mapped with
  | nil => cases mapped <;> simp
  | cons item items ih =>
    rw [List.mapM_cons]
    cases mapped with
    | nil => cases f item <;> cases items.mapM f <;> simp
    | cons value mapped =>
      rw [List.forall₂_cons, ← ih]
      cases f item <;> cases items.mapM f <;> simp

theorem exists_of_mapM_eq_some (h : items.mapM f = some mapped) {item : α} (hmem : item ∈ items) :
    ∃ value ∈ mapped, f item = some value := by
  rw [mapM_eq_some_iff] at h
  induction h with
  | nil => cases hmem
  | cons hfirst _ ih =>
    rcases List.mem_cons.1 hmem with rfl | hmem
    · exact ⟨_, List.mem_cons_self, hfirst⟩
    · obtain ⟨value, hvalue, hitem⟩ := ih hmem
      exact ⟨value, List.mem_cons_of_mem _ hvalue, hitem⟩

end Option

end DnsMatch
