import Mathlib
import DnsMatch.Proofs.Segment.Cursor
import DnsMatch.Proofs.Segments

/-! # Segments and windows tile a message

Around the windows of a chain, each offset of a message is in one segment or in
one window (`countAt_add_windowsAt`), the segments ascend, and together with the
windows they are as long as the message. Of a message that is walked, no segment
is empty. -/

namespace DnsMatch

open Wire (IsChainFrom Message ttlLength walk)

variable {ttlOffsets : List Nat} {length start : Nat}

def Wire.windowsAt (ttlOffsets : List Nat) (offset : Nat) : Nat :=
  ttlOffsets.countP fun ttlOffset => ttlOffset ≤ offset ∧ offset < ttlOffset + ttlLength

namespace Segment

def countAt (segments : List Segment) (offset : Nat) : Nat :=
  segments.countP (·.contains offset)

def width (segment : Segment) : Nat :=
  segment.stop - segment.start

theorem contains_iff {segment : Segment} {offset : Nat} :
    segment.contains offset ↔ segment.start ≤ offset ∧ offset < segment.stop := by
  simp [contains]

/-! ## Around a chain -/

section Chain

variable (hmax : length ≤ Offset.max)

include hmax

theorem listFrom_cons {ttlOffset : Nat}
    (h : IsChainFrom length start (ttlOffset :: ttlOffsets)) :
    listFrom length start (ttlOffset :: ttlOffsets) =
      ⟨start, ttlOffset⟩ :: listFrom length (ttlOffset + ttlLength) ttlOffsets := by
  rw [listFrom, startAfter_eq (Nat.le_trans h.2.le_length hmax)]

/-- Each offset from the start of a chain to its end is in one segment or in one window, and no
other offset is in any. -/
theorem countAt_add_windowsAt (h : IsChainFrom length start ttlOffsets) (offset : Nat) :
    countAt (listFrom length start ttlOffsets) offset + Wire.windowsAt ttlOffsets offset =
      if start ≤ offset ∧ offset < length then 1 else 0 := by
  induction ttlOffsets generalizing start with
  | nil => simp [listFrom, countAt, Wire.windowsAt, List.countP_cons, contains_iff]
  | cons ttlOffset ttlOffsets ih =>
    have hle := h.1
    have hlength := h.2.le_length
    have hrest := ih h.2
    rw [listFrom_cons hmax h]
    simp only [countAt, Wire.windowsAt, List.countP_cons, contains_iff, decide_eq_true_eq]
      at hrest ⊢
    split at hrest <;> split <;> split <;> split <;> omega

theorem bounds_of_mem_listFrom (h : IsChainFrom length start ttlOffsets) {segment : Segment}
    (hmem : segment ∈ listFrom length start ttlOffsets) :
    start ≤ segment.start ∧ segment.start ≤ segment.stop ∧ segment.stop ≤ length := by
  induction ttlOffsets generalizing start with
  | nil =>
    obtain rfl : segment = ⟨start, length⟩ := by simpa [listFrom] using hmem
    exact ⟨Nat.le_refl _, h, Nat.le_refl _⟩
  | cons ttlOffset ttlOffsets ih =>
    have hle := h.1
    have hlength := h.2.le_length
    rw [listFrom_cons hmax h, List.mem_cons] at hmem
    rcases hmem with rfl | hmem
    · exact ⟨Nat.le_refl _, hle, by simp only; omega⟩
    · have := ih h.2 hmem
      omega

theorem pairwise_listFrom (h : IsChainFrom length start ttlOffsets) :
    (listFrom length start ttlOffsets).Pairwise fun segment next =>
      segment.stop + ttlLength ≤ next.start := by
  induction ttlOffsets generalizing start with
  | nil => exact List.pairwise_singleton _ _
  | cons ttlOffset ttlOffsets ih =>
    rw [listFrom_cons hmax h]
    exact .cons (fun next hmem => (bounds_of_mem_listFrom hmax h.2 hmem).1) (ih h.2)

theorem sum_width_listFrom (h : IsChainFrom length start ttlOffsets) :
    start + ((listFrom length start ttlOffsets).map Segment.width).sum +
      ttlLength * ttlOffsets.length = length := by
  induction ttlOffsets generalizing start with
  | nil =>
    have hle : start ≤ length := h
    simp only [listFrom, List.map_cons, List.map_nil, List.sum_cons, List.sum_nil,
      Segment.width, List.length_nil]
    omega
  | cons ttlOffset ttlOffsets ih =>
    have hle := h.1
    have hrest := ih h.2
    rw [listFrom_cons hmax h]
    simp only [List.map_cons, List.sum_cons, Segment.width, List.length_cons, ttlLength]
      at hrest ⊢
    omega

end Chain

/-! ## Around the TTLs of a message -/

/-- **Segments and windows tile a message.** There is one segment more than there are TTLs. If the
windows are a chain for a length that is an offset itself, each offset below that length is in
exactly one segment and no window or in exactly one window and no segment; no offset from there on
is in any segment; each segment ends before the next one starts, with room for a window between
them; and the segments are as long as the windows leave. If the offsets are those of a walked
message of that length, no segment is empty besides. -/
theorem list_tiles_message (length : Nat) (ttlOffsets : List Nat) :
    (SegmentCursor.first length ttlOffsets).Yields (list length ttlOffsets) ∧
    (list length ttlOffsets).length = ttlOffsets.length + 1 ∧
    (length ≤ Offset.max → Wire.IsChain length ttlOffsets →
      (∀ offset, offset < length →
        countAt (list length ttlOffsets) offset = 1 ∧ Wire.windowsAt ttlOffsets offset = 0 ∨
        countAt (list length ttlOffsets) offset = 0 ∧ Wire.windowsAt ttlOffsets offset = 1) ∧
      (∀ offset, length ≤ offset → ∀ segment ∈ list length ttlOffsets,
        ¬segment.contains offset) ∧
      (∀ segment ∈ list length ttlOffsets, segment.start ≤ segment.stop) ∧
      (list length ttlOffsets).Pairwise (fun segment next =>
        segment.stop + ttlLength ≤ next.start) ∧
      ((list length ttlOffsets).map Segment.width).sum + 4 * ttlOffsets.length = length) ∧
    (∀ octets : Octets, octets.size = length → walk octets = .ok ttlOffsets →
      Wire.IsChain length ttlOffsets ∧
        ∀ segment ∈ list length ttlOffsets, segment.start < segment.stop) := by
  refine ⟨(SegmentCursor.first length ttlOffsets).yields_remaining, length_listFrom _ _ _, ?_, ?_⟩
  · intro hmax hchain
    refine ⟨?_, ?_, ?_, pairwise_listFrom hmax hchain, ?_⟩
    · intro offset hlt
      have hone := countAt_add_windowsAt hmax hchain offset
      rw [if_pos ⟨Nat.zero_le _, hlt⟩] at hone
      unfold list
      omega
    · intro offset hle segment hmem hcontains
      have hstop := (bounds_of_mem_listFrom hmax hchain hmem).2.2
      have hlt := (contains_iff.1 hcontains).2
      omega
    · intro segment hmem
      exact (bounds_of_mem_listFrom hmax hchain hmem).2.1
    · have hsum := sum_width_listFrom hmax hchain
      rwa [Nat.zero_add] at hsum
  · intro octets hsize hwalk
    obtain ⟨stop, ⟨hstop, hmax⟩, hspaced⟩ := Wire.walk_isSpaced hwalk
    subst hsize
    refine ⟨hspaced.isChainFrom.mono_length hstop, fun segment hmem => ?_⟩
    exact (mem_listFrom hspaced hstop hmax hmem).2

/-- The sample has three segments and two windows, and offset 28 is in a window. -/
theorem list_tiles_message_sample :
    let segments := list 47 [25, 40]
    (SegmentCursor.first 47 [25, 40]).Yields segments ∧
    countAt segments 28 = 0 ∧ Wire.windowsAt [25, 40] 28 = 1 ∧
    ¬Segment.contains ⟨44, 47⟩ 47 ∧
    (segments.map Segment.width).sum + 4 * 2 = 47 ∧
    ∀ segment ∈ segments, segment.start < segment.stop := by
  intro segments
  obtain ⟨hyields, _, hchain, hwalk⟩ := list_tiles_message 47 [25, 40]
  obtain ⟨htiles, hbeyond, _, _, hsum⟩ := hchain (by decide)
    (by simp [Wire.IsChain, IsChainFrom, ttlLength])
  have hwindow : countAt segments 28 = 0 ∧ Wire.windowsAt [25, 40] 28 = 1 :=
    (htiles 28 (by decide)).resolve_left (by decide)
  exact ⟨hyields, hwindow.1, hwindow.2, hbeyond 47 (Nat.le_refl _) _ (by decide), hsum,
    (hwalk Message.sample.encode (by decide) Wire.walk_sample).2⟩

end Segment

end DnsMatch
