import DnsMatch.Segment

/-! # Going through segments one by one

A `SegmentCursor` stands between two segments of a message, or behind the last
one. It finds the segments on the way, from the TTL offsets still ahead of it.
A `SegmentCursors` is a row of cursors over one message that are moved and
copied independently of each other. -/

namespace DnsMatch

/-- A place in the row of segments of a message. -/
structure SegmentCursor where
  length : Nat
  ttlOffsets : List Nat
  /-- Where the next segment starts; nothing behind the last segment. -/
  start? : Option Nat
deriving DecidableEq, Repr

namespace SegmentCursor

/-- The place before the first segment. -/
def first (length : Nat) (ttlOffsets : List Nat) : SegmentCursor :=
  ⟨length, ttlOffsets, some 0⟩

/-- The next segment, if there is one, and the place behind it. -/
def next (cursor : SegmentCursor) : Option Segment × SegmentCursor :=
  match cursor.start?, cursor.ttlOffsets with
  | none, _ => (none, cursor)
  | some start, [] => (some ⟨start, cursor.length⟩, { cursor with start? := none })
  | some start, ttlOffset :: ttlOffsets =>
    (some ⟨start, ttlOffset⟩,
      { cursor with ttlOffsets, start? := some (Segment.startAfter ttlOffset) })

/-- The segment after `count` others, if there is one, and the place behind it. -/
def nth (cursor : SegmentCursor) : Nat → Option Segment × SegmentCursor
  | 0 => cursor.next
  | count + 1 =>
    match cursor.next with
    | (none, behind) => (none, behind)
    | (some _, behind) => behind.nth count

/-- All segments that are left. -/
def remaining (cursor : SegmentCursor) : List Segment :=
  match cursor.start? with
  | none => []
  | some start => Segment.listFrom cursor.length start cursor.ttlOffsets

@[simp] theorem remaining_first (length : Nat) (ttlOffsets : List Nat) :
    (first length ttlOffsets).remaining = Segment.list length ttlOffsets := rfl

/-- A step takes the first of the segments that are left. -/
theorem next_eq (cursor : SegmentCursor) :
    cursor.next.1 = cursor.remaining.head? ∧
      cursor.next.2.remaining = cursor.remaining.tail := by
  obtain ⟨length, ttlOffsets, start?⟩ := cursor
  cases start? with
  | none => simp [next, remaining]
  | some start => cases ttlOffsets <;> simp [next, remaining, Segment.listFrom]

/-- The place behind the last segment. -/
def last (cursor : SegmentCursor) : SegmentCursor :=
  { cursor with ttlOffsets := [], start? := none }

end SegmentCursor

/-- Cursors over the segments of one message. -/
abbrev SegmentCursors := Array SegmentCursor

namespace SegmentCursors

/-- Something done with one of the cursors, which is given by its place in the row. -/
inductive Step where
  | next (index : Nat)
  | nth (index count : Nat)
  | copy (index : Nat)
  | drain (index : Nat)
deriving DecidableEq, Repr

inductive Answer where
  | segment (segment? : Option Segment)
  | index (index : Nat)
  | segments (segments : List Segment)
deriving DecidableEq, Repr

/-- One step. A cursor that is not there has no segments, and steps on it change nothing. -/
def step (cursors : SegmentCursors) : Step → Answer × SegmentCursors
  | .next index =>
    match cursors[index]? with
    | none => (.segment none, cursors)
    | some cursor => (.segment cursor.next.1, cursors.setIfInBounds index cursor.next.2)
  | .nth index count =>
    match cursors[index]? with
    | none => (.segment none, cursors)
    | some cursor =>
      let (segment?, behind) := cursor.nth count
      (.segment segment?, cursors.setIfInBounds index behind)
  | .copy index =>
    match cursors[index]? with
    | none => (.index cursors.size, cursors)
    | some cursor => (.index cursors.size, cursors.push cursor)
  | .drain index =>
    match cursors[index]? with
    | none => (.segments [], cursors)
    | some cursor => (.segments cursor.remaining, cursors.setIfInBounds index cursor.last)

/-- What the steps of a list give, one after the other. -/
def answers (cursors : SegmentCursors) : List Step → List Answer
  | [] => []
  | step :: steps =>
    let (answer, after) := cursors.step step
    answer :: SegmentCursors.answers after steps

end SegmentCursors

end DnsMatch
