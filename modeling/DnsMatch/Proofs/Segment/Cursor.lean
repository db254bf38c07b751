import DnsMatch.Segment.Cursor

/-! # Cursors as positions in a list

A cursor finds its segments on the way, but it moves as an index into the list
of all segments would. `Positions.step` is the step of a row of such indices,
and `answers_eq` says that cursors give the same answers, in every run of steps
over any number of copies. -/

namespace DnsMatch

variable {segments : List Segment}

namespace SegmentCursor

/-! ## One cursor -/

/-- Whether a cursor that is moved on by single steps gives these segments and then nothing any
more. -/
inductive Yields : SegmentCursor → List Segment → Prop
  | stop {cursor : SegmentCursor} (exhausted : cursor.next = (none, cursor)) : Yields cursor []
  | step {cursor behind : SegmentCursor} {segment : Segment} {segments : List Segment}
      (next : cursor.next = (some segment, behind)) (rest : Yields behind segments) :
      Yields cursor (segment :: segments)

theorem yields_remaining (cursor : SegmentCursor) : cursor.Yields cursor.remaining := by
  obtain ⟨length, ttlOffsets, start?⟩ := cursor
  cases start? with
  | none => exact .stop rfl
  | some start =>
    induction ttlOffsets generalizing start with
    | nil => exact .step rfl (.stop rfl)
    | cons ttlOffset ttlOffsets ih => exact .step rfl (ih _)

/-- Passing over segments drops them from what is left. -/
theorem nth_eq (cursor : SegmentCursor) (count : Nat) :
    (cursor.nth count).1 = cursor.remaining[count]? ∧
      (cursor.nth count).2.remaining = cursor.remaining.drop (count + 1) := by
  induction count generalizing cursor with
  | zero =>
    obtain ⟨hsegment, hbehind⟩ := cursor.next_eq
    rw [nth, hsegment, hbehind, List.head?_eq_getElem?, Nat.zero_add, List.drop_one]
    exact ⟨rfl, rfl⟩
  | succ count ih =>
    obtain ⟨hsegment, hbehind⟩ := cursor.next_eq
    rw [nth]
    split
    · next behind hnext =>
      rw [hnext] at hsegment hbehind
      have hnil : cursor.remaining = [] := List.head?_eq_none_iff.1 hsegment.symm
      rw [hbehind, hnil]
      exact ⟨rfl, rfl⟩
    · next segment behind hnext =>
      rw [hnext] at hsegment hbehind
      obtain ⟨rest, hrest⟩ := List.head?_eq_some_iff.1 hsegment.symm
      obtain ⟨hcount, hlater⟩ := ih behind
      rw [hcount, hlater, hbehind, hrest]
      exact ⟨rfl, rfl⟩

/-- Whether a cursor stands at a position in a list of segments: those behind the position are
left. -/
structure IsAt (segments : List Segment) (cursor : SegmentCursor) (position : Nat) : Prop where
  le_length : position ≤ segments.length
  remaining_eq : cursor.remaining = segments.drop position

namespace IsAt

variable {cursor : SegmentCursor} {position : Nat}

theorem next (h : cursor.IsAt segments position) :
    cursor.next.1 = segments[position]? ∧ cursor.next.2.IsAt segments
      (if position < segments.length then position + 1 else position) := by
  obtain ⟨hsegment, hbehind⟩ := cursor.next_eq
  rw [h.remaining_eq, List.head?_drop] at hsegment
  rw [h.remaining_eq, List.tail_drop] at hbehind
  refine ⟨hsegment, ?_⟩
  have hle := h.le_length
  split
  · exact ⟨by omega, hbehind⟩
  · exact ⟨hle, by
      rw [hbehind, List.drop_of_length_le (by omega), List.drop_of_length_le (by omega)]⟩

theorem nth (h : cursor.IsAt segments position) (count : Nat) :
    (cursor.nth count).1 = segments[position + count]? ∧ (cursor.nth count).2.IsAt segments
      (if position + count < segments.length then position + count + 1
        else segments.length) := by
  obtain ⟨hsegment, hbehind⟩ := cursor.nth_eq count
  rw [h.remaining_eq, List.getElem?_drop] at hsegment
  rw [h.remaining_eq, List.drop_drop] at hbehind
  refine ⟨hsegment, ?_⟩
  split
  · exact ⟨by omega, hbehind⟩
  · exact ⟨Nat.le_refl _, by
      rw [hbehind, List.drop_of_length_le (by omega), List.drop_of_length_le (Nat.le_refl _)]⟩

theorem last (cursor : SegmentCursor) (segments : List Segment) :
    cursor.last.IsAt segments segments.length :=
  ⟨Nat.le_refl _, List.drop_length.symm⟩

theorem yields (h : cursor.IsAt segments position) : cursor.Yields (segments.drop position) :=
  h.remaining_eq ▸ cursor.yields_remaining

end IsAt

end SegmentCursor

namespace SegmentCursors

open SegmentCursor (IsAt)

/-! ## The machine of positions -/

/-- Where each cursor of a row stands: how many segments are before it. -/
abbrev Positions := Array Nat

/-- One step of cursors that are nothing but positions in a list of segments. -/
def Positions.step (segments : List Segment) (positions : Positions) : Step → Answer × Positions
  | .next index =>
    match positions[index]? with
    | none => (.segment none, positions)
    | some position =>
      (.segment segments[position]?, positions.setIfInBounds index
        (if position < segments.length then position + 1 else position))
  | .nth index count =>
    match positions[index]? with
    | none => (.segment none, positions)
    | some position =>
      (.segment segments[position + count]?, positions.setIfInBounds index
        (if position + count < segments.length then position + count + 1 else segments.length))
  | .copy index =>
    match positions[index]? with
    | none => (.index positions.size, positions)
    | some position => (.index positions.size, positions.push position)
  | .drain index =>
    match positions[index]? with
    | none => (.segments [], positions)
    | some position =>
      (.segments (segments.drop position), positions.setIfInBounds index segments.length)

def Positions.answers (segments : List Segment) (positions : Positions) : List Step → List Answer
  | [] => []
  | step :: steps =>
    (positions.step segments step).1 ::
      Positions.answers segments (positions.step segments step).2 steps

def Positions.after (segments : List Segment) (positions : Positions) (steps : List Step) :
    Positions :=
  steps.foldl (fun positions step => (positions.step segments step).2) positions

def after (cursors : SegmentCursors) (steps : List Step) : SegmentCursors :=
  steps.foldl (fun cursors step => (cursors.step step).2) cursors

def Step.index : Step → Nat
  | .next index | .nth index _ | .copy index | .drain index => index

/-! ## Cursors beside positions -/

variable {cursors : SegmentCursors} {positions : Positions}

/-- Whether each cursor of a row stands at its position in a list of segments. -/
structure StandAt (segments : List Segment) (cursors : SegmentCursors) (positions : Positions) :
    Prop where
  size_eq : positions.size = cursors.size
  isAt : ∀ (index : Nat) (cursor : SegmentCursor), cursors[index]? = some cursor →
    ∃ position, positions[index]? = some position ∧ cursor.IsAt segments position

namespace StandAt

theorem getElem?_eq_none (h : StandAt segments cursors positions) {index : Nat}
    (hnone : cursors[index]? = none) : positions[index]? = none := by
  rw [Array.getElem?_eq_none_iff] at hnone ⊢
  rw [h.size_eq]
  exact hnone

theorem set (h : StandAt segments cursors positions) {cursor : SegmentCursor} {position : Nat}
    (hat : cursor.IsAt segments position) (index : Nat) :
    StandAt segments (cursors.setIfInBounds index cursor)
      (positions.setIfInBounds index position) where
  size_eq := by simpa using h.size_eq
  isAt := by
    intro other cursor' hcursor
    rw [Array.getElem?_setIfInBounds] at hcursor ⊢
    rw [h.size_eq]
    by_cases hother : index = other
    · rw [if_pos hother] at hcursor ⊢
      split at hcursor
      · next hlt => exact ⟨position, if_pos hlt, Option.some.inj hcursor ▸ hat⟩
      · cases hcursor
    · rw [if_neg hother] at hcursor ⊢
      exact h.isAt other cursor' hcursor

theorem push (h : StandAt segments cursors positions) {cursor : SegmentCursor} {position : Nat}
    (hat : cursor.IsAt segments position) :
    StandAt segments (cursors.push cursor) (positions.push position) where
  size_eq := by simpa using h.size_eq
  isAt := by
    intro index cursor' hcursor
    rw [Array.getElem?_push] at hcursor ⊢
    rw [h.size_eq]
    split at hcursor
    · next hlast => exact ⟨position, if_pos hlast, Option.some.inj hcursor ▸ hat⟩
    · next hlast => rw [if_neg hlast]; exact h.isAt index cursor' hcursor

/-- A step gives the same answer on both sides and keeps each cursor at its position. -/
theorem step (h : StandAt segments cursors positions) (step : Step) :
    (cursors.step step).1 = (positions.step segments step).1 ∧
      StandAt segments (cursors.step step).2 (positions.step segments step).2 := by
  cases hcursor : cursors[step.index]? with
  | none =>
    have hposition := h.getElem?_eq_none hcursor
    cases step <;> simp_all [Step.index, SegmentCursors.step, Positions.step, h.size_eq]
  | some cursor =>
    obtain ⟨position, hposition, hat⟩ := h.isAt _ _ hcursor
    cases step with
    | next index =>
      simp only [Step.index] at hcursor hposition
      simp only [SegmentCursors.step, Positions.step, hcursor, hposition]
      exact ⟨congrArg _ hat.next.1, h.set hat.next.2 index⟩
    | nth index count =>
      simp only [Step.index] at hcursor hposition
      simp only [SegmentCursors.step, Positions.step, hcursor, hposition]
      exact ⟨congrArg _ (hat.nth count).1, h.set (hat.nth count).2 index⟩
    | copy index =>
      simp only [Step.index] at hcursor hposition
      simp only [SegmentCursors.step, Positions.step, hcursor, hposition]
      exact ⟨congrArg _ h.size_eq.symm, h.push hat⟩
    | drain index =>
      simp only [Step.index] at hcursor hposition
      simp only [SegmentCursors.step, Positions.step, hcursor, hposition]
      exact ⟨congrArg _ hat.remaining_eq, h.set (IsAt.last cursor segments) index⟩

theorem after (h : StandAt segments cursors positions) (steps : List Step) :
    StandAt segments (cursors.after steps) (positions.after segments steps) := by
  induction steps generalizing cursors positions with
  | nil => exact h
  | cons step steps ih => exact ih (h.step step).2

theorem answers_eq (h : StandAt segments cursors positions) (steps : List Step) :
    cursors.answers steps = positions.answers segments steps := by
  induction steps generalizing cursors positions with
  | nil => rfl
  | cons step steps ih =>
    obtain ⟨hanswer, hafter⟩ := h.step step
    rw [answers, Positions.answers, ← hanswer, ← ih hafter]

/-- A fresh cursor stands before the first segment. -/
theorem first (length : Nat) (ttlOffsets : List Nat) :
    StandAt (Segment.list length ttlOffsets) #[SegmentCursor.first length ttlOffsets] #[0] where
  size_eq := rfl
  isAt := by
    intro index cursor hcursor
    rw [List.getElem?_toArray, List.getElem?_singleton] at hcursor
    split at hcursor
    · next hindex =>
      obtain rfl := Option.some.inj hcursor
      exact ⟨0, by rw [hindex]; rfl, Nat.zero_le _, rfl⟩
    · cases hcursor

end StandAt

/-! ## What a step leaves alone -/

/-- A step on one cursor does not change any other. -/
theorem getElem?_step_of_ne {step : Step} {other : Nat} (hne : other ≠ step.index)
    (hlt : other < cursors.size) : (cursors.step step).2[other]? = cursors[other]? := by
  cases step with
  | next index | nth index count | drain index =>
    simp only [SegmentCursors.step]
    split
    · rfl
    · exact Array.getElem?_setIfInBounds_ne hne.symm
  | copy index =>
    simp only [SegmentCursors.step]
    split
    · rfl
    · rw [Array.getElem?_push, if_neg (Nat.ne_of_lt hlt)]

namespace Positions

variable {index other value : Nat}

theorem getElem?_set_of_last (h : positions[index]? = some segments.length)
    (hvalue : other = index → value = segments.length) :
    (positions.setIfInBounds other value)[index]? = some segments.length := by
  rw [Array.getElem?_setIfInBounds]
  split
  · next hsame =>
    have hlt := (Array.getElem?_eq_some_iff.1 h).1
    rw [if_pos (hsame ▸ hlt), hvalue hsame]
  · exact h

/-- The position behind the last segment stays. -/
theorem getElem?_step_of_last (h : positions[index]? = some segments.length) (step : Step) :
    (positions.step segments step).2[index]? = some segments.length := by
  have hposition : ∀ {other position : Nat}, positions[other]? = some position →
      other = index → position = segments.length := by
    intro other position hother hsame
    rw [hsame, h] at hother
    exact (Option.some.inj hother).symm
  cases step with
  | next other =>
    simp only [Positions.step]
    split
    · exact h
    · next position hother =>
      refine getElem?_set_of_last h fun hsame => ?_
      have := hposition hother hsame
      rw [if_neg (by omega), this]
  | nth other count =>
    simp only [Positions.step]
    split
    · exact h
    · next position hother =>
      refine getElem?_set_of_last h fun hsame => ?_
      have := hposition hother hsame
      rw [if_neg (by omega)]
  | copy other =>
    simp only [Positions.step]
    split
    · exact h
    · have hlt := (Array.getElem?_eq_some_iff.1 h).1
      rw [Array.getElem?_push, if_neg (Nat.ne_of_lt hlt), h]
  | drain other =>
    simp only [Positions.step]
    split
    · exact h
    · exact getElem?_set_of_last h fun _ => rfl

theorem getElem?_after_of_last (h : positions[index]? = some segments.length)
    (steps : List Step) : (positions.after segments steps)[index]? = some segments.length := by
  induction steps generalizing positions with
  | nil => exact h
  | cons step steps ih => exact ih (getElem?_step_of_last h step)

theorem answer_of_last (h : positions[index]? = some segments.length) (count : Nat) :
    (positions.step segments (.next index)).1 = .segment none ∧
      (positions.step segments (.nth index count)).1 = .segment none := by
  simp [Positions.step, h]

end Positions

/-! ## Every run -/

/-- **Cursors go through segments as positions in their list do.** Whatever is done with one fresh
cursor and its copies, each answer is that of positions, the first of which is zero; each cursor
has as many segments before it as its position says and yields those behind it; a step on one cursor
leaves all others where they are; and a cursor behind the last segment gives nothing, however often
it is asked and whatever else is done. -/
theorem cursors_are_positions_in_list (length : Nat) (ttlOffsets : List Nat) (steps : List Step) :
    let segments := Segment.list length ttlOffsets
    let cursors := after #[SegmentCursor.first length ttlOffsets] steps
    let positions := Positions.after segments #[0] steps
    segments.length = ttlOffsets.length + 1 ∧
    answers #[SegmentCursor.first length ttlOffsets] steps =
      Positions.answers segments #[0] steps ∧
    positions.size = cursors.size ∧
    (∀ (index : Nat) (cursor : SegmentCursor), cursors[index]? = some cursor →
      ∃ position, positions[index]? = some position ∧ position ≤ segments.length ∧
        cursor.Yields (segments.drop position)) ∧
    (∀ (step : Step) (other : Nat), other ≠ step.index → other < cursors.size →
      (cursors.step step).2[other]? = cursors[other]?) ∧
    (∀ index : Nat, positions[index]? = some segments.length → ∀ more count,
      ((cursors.after more).step (.next index)).1 = .segment none ∧
        ((cursors.after more).step (.nth index count)).1 = .segment none) := by
  intro segments cursors positions
  have hfirst := StandAt.first length ttlOffsets
  have hstand : StandAt segments cursors positions := hfirst.after steps
  refine ⟨Segment.length_listFrom _ _ _, hfirst.answers_eq steps, hstand.size_eq, ?_, ?_, ?_⟩
  · intro index cursor hcursor
    obtain ⟨position, hposition, hat⟩ := hstand.isAt index cursor hcursor
    exact ⟨position, hposition, hat.le_length, hat.yields⟩
  · intro step other hne hlt
    exact getElem?_step_of_ne hne hlt
  · intro index hlast more count
    have hlater := hstand.after more
    rw [(hlater.step _).1, (hlater.step _).1]
    exact Positions.answer_of_last (Positions.getElem?_after_of_last hlast more) count

/-- Of three segments the first is taken and the cursor copied. The copy passes over one segment and
takes the last, after which it gives nothing, and the cursor still has the two behind the first. -/
theorem cursors_are_positions_in_list_sample :
    let steps : List Step := [.next 0, .copy 0, .nth 1 1]
    let cursors := after #[SegmentCursor.first 56 [10, 30]] steps
    answers #[SegmentCursor.first 56 [10, 30]] steps =
      [.segment (some ⟨0, 10⟩), .index 1, .segment (some ⟨34, 56⟩)] ∧
    (∃ cursor, cursors[0]? = some cursor ∧ cursor.Yields [⟨14, 30⟩, ⟨34, 56⟩]) ∧
    (cursors.step (.next 0)).2[1]? = cursors[1]? ∧
    ((cursors.after [.drain 0, .copy 1]).step (.next 1)).1 = .segment none := by
  intro steps cursors
  obtain ⟨_, hanswers, _, hyields, hothers, hlast⟩ :=
    cursors_are_positions_in_list 56 [10, 30] steps
  refine ⟨hanswers, ?_, hothers (.next 0) 1 (by decide) (by decide),
    (hlast 1 rfl [.drain 0, .copy 1] 0).1⟩
  obtain ⟨position, hposition, _, hcursor⟩ := hyields 0 _ rfl
  cases hposition
  exact ⟨_, rfl, hcursor⟩

end SegmentCursors

end DnsMatch
